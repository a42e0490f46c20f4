import BuildMatrix.Proofs.FileSystem.Entry
import BuildMatrix.Workspace

/-!
# Files of a workspace

Whether a path below a workspace leads to a file depends only on the tree of the workspace, as long
as the look-up does not leave it.
-/

namespace BuildMatrix

open FileSystem

/-- Whether a tree has a file at a path. The way to the tree leaves a number of links, and takes a
number of bytes of the path. -/
def Workspace.hasFile (links size : Nat) (tree : Node) (path : String) : Bool :=
  !path.toList.contains (Char.ofNat 0) && decide (size + 1 + path.utf8ByteSize < pathLimit) &&
  match walk tree true links [] (Path.names path) with
  | .ok (.present _ (.file ..)) => !Path.endsInSlash path
  | _ => false

namespace FileSystem

section
variable {fs : FileSystem} {base path : String} (hu : IsUsable base)
  (hslash : Path.endsInSlash base = false) (hrel : Path.isAbsolute path = false)
include hu hslash hrel

theorem join_eq_of_isUsable : Path.join base path = base ++ "/" ++ path := by
  have hempty : base.isEmpty = false := by simpa using hu.nonempty
  simp [Path.join, hrel, hslash, hempty]

theorem join_ne_empty : Path.join base path ≠ "" := by
  rw [join_eq_of_isUsable hu hslash hrel]
  intro h
  simpa using congrArg String.toList h

theorem isUsable_join_iff : IsUsable (Path.join base path) ↔
    Char.ofNat 0 ∉ path.toList ∧ base.utf8ByteSize + 1 + path.utf8ByteSize < pathLimit := by
  rw [join_eq_of_isUsable hu hslash hrel]
  have hsize : (base ++ "/" ++ path).utf8ByteSize = base.utf8ByteSize + 1 + path.utf8ByteSize := by
    rw [String.utf8ByteSize_append, String.utf8ByteSize_append]
    rfl
  constructor
  · rintro ⟨hnul, -, hlt⟩
    refine ⟨fun h => hnul (by simp [h]), by omega⟩
  · rintro ⟨hnul, hlt⟩
    refine ⟨by simp [hu.nul, hnul], ?_, by omega⟩
    intro h
    simpa using congrArg String.toList h

end

/-- A look-up below a directory that does not leave it. -/
theorem isFile_join {avoid : Location → Prop} {fs : FileSystem} {base path : String} {links : Nat}
    {location : Location} {entries : Entries} (h : Resolves avoid fs base links location)
    (hd : fs.root.get? location = some (.directory entries)) (hu : IsUsable base)
    (hslash : Path.endsInSlash base = false) (hrel : Path.isAbsolute path = false)
    (hinside : staysInside (.directory entries) links [] (Path.names path)) :
    fs.isFile (Path.join base path) =
      Workspace.hasFile links base.utf8ByteSize (.directory entries) path := by
  have hiff := isUsable_join_iff hu hslash hrel
  by_cases husable : IsUsable (Path.join base path)
  · obtain ⟨hnul, hsize⟩ := hiff.mp husable
    have hwalk := h.walk_join hrel (.inr (rfl : true = true))
    have hsame : walk fs.root true links (location ++ []) (Path.names path) = _ :=
      walk_inside hd hinside
    rw [← List.append_nil location, hsame] at hwalk
    simp only [isFile, node?, lookup_of_isUsable husable, Bool.true_or, hwalk, Workspace.hasFile,
      List.contains_eq_mem, hnul, decide_false, Bool.not_false, hsize, decide_true, Bool.true_and]
    by_cases hne : path = ""
    · subst hne
      have hroot : walk (.directory entries) true links [] (Path.names "") =
          .ok (.present [] (.directory entries)) := walk_nil _ _ _ _
      simp [hroot, Except.map, Place.below]
    · rw [Path.endsInSlash_join hrel hne]
      rcases walk (.directory entries) true links [] (Path.names path) with
        e | ⟨l, contents, executable | target | inner⟩ | l
      all_goals cases Path.endsInSlash path <;> simp [Except.map, Place.below]
  · have hne := join_ne_empty hu hslash hrel
    obtain ⟨e, -, he⟩ := lookup_of_not_isUsable husable hne fs
    simp only [isFile, node?, he true, Workspace.hasFile, List.contains_eq_mem]
    by_cases hnul : Char.ofNat 0 ∈ path.toList
    · simp [hnul]
    · have hsize : ¬base.utf8ByteSize + 1 + path.utf8ByteSize < pathLimit :=
        fun h => husable (hiff.mpr ⟨hnul, h⟩)
      simp [hsize]

end FileSystem

end BuildMatrix
