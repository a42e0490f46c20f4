import BuildMatrix.Cache.Policy
import BuildMatrix.Cache.Resolution
import BuildMatrix.Proofs.FileSystem.Region
import BuildMatrix.Proofs.Matrix.Slug

/-!
# Where restored files are

Whatever the payload is, restoring it below a directory changes nothing outside of the region that
the path of the directory enters, and makes no links there. This includes restores that fail.
-/

namespace BuildMatrix

open FileSystem

section
variable {region : Location → Prop} {files : FileSystem} {directory first : String}
  {base : Location} (hclosed : IsClosed region)
include hclosed

namespace Archive

theorem grows_restoreFile (h : Enters region files directory base first)
    (hu : Unlinked region files) (file : ArchivedFile) :
    Grows region files (restoreFile files directory file).1 := by
  unfold restoreFile
  split
  · exact ⟨.refl _ _, hu⟩
  next hcontained =>
  obtain ⟨hrel, hup⟩ := Path.of_isContained (by simpa using hcontained)
  have htarget := h.join hrel hup
  have hfront : Path.IsFront ((Path.parent? (Path.join directory file.path)).getD "").toList
      (Path.join directory file.path).toList := by
    cases hp : Path.parent? (Path.join directory file.path) with
    | none => exact ⟨List.nil_prefix, List.nil_prefix⟩
    | some parent => exact Path.isFront_parent? hp
  have hmade := htarget.makeDirectories hclosed hu hfront
  simp only
  split
  · next made cause hm =>
      rw [hm] at hmade
      exact hmade
  · next made hm =>
      rw [hm] at hmade
      split
      · next written hw =>
          exact hmade.trans
            ((htarget.frame hclosed hmade.confined).write hclosed hmade.unlinked hw)
      · exact hmade

theorem grows_restoreFiles (h : Enters region files directory base first)
    (hu : Unlinked region files) (archived : List ArchivedFile) :
    Grows region files (restoreFiles files directory archived).1 := by
  induction archived generalizing files with
  | nil => exact ⟨.refl _ _, hu⟩
  | cons file rest ih =>
      have hfile := grows_restoreFile hclosed h hu file
      unfold restoreFiles
      split
      · next made hm =>
          rw [hm] at hfile
          exact hfile.trans (ih (h.frame hclosed hfile.confined) hfile.unlinked)
      · exact hfile

theorem grows_restore (h : Enters region files directory base first)
    (hu : Unlinked region files) (payload : Bytes) :
    Grows region files (restore files directory payload).1 := by
  unfold restore
  split
  · exact ⟨.refl _ _, hu⟩
  split
  · exact ⟨.refl _ _, hu⟩
  next archive _ =>
  have hfiles := grows_restoreFiles hclosed h hu archive.files
  split
  · next hr => rwa [hr] at hfiles
  · next hr => rwa [hr] at hfiles

end Archive

theorem Resolution.grows_restore (h : Enters region files directory base first)
    (hu : Unlinked region files) (found : Resolution) :
    Grows region files (found.restore files directory).1 := by
  have hfiles := Archive.grows_restore hclosed h hu found.payload
  unfold Resolution.restore
  split
  · next hr => rwa [hr] at hfiles
  · next hr => rwa [hr] at hfiles

end

end BuildMatrix
