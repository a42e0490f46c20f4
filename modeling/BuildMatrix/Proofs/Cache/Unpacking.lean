import BuildMatrix.Cache.Archive
import BuildMatrix.Proofs.FileSystem.Extension

/-!
# Unpacking up to the first refused path

Files are written in the order of the archive, and each path is looked at when its turn comes. So
the files before the first path that is refused are written, and nothing behind it is. Whatever
happens, nothing is taken away.
-/

namespace BuildMatrix.Archive

open FileSystem

theorem decode?_nil : decode? [] = none := by decide

/-- The files before the first one whose path is refused. -/
def safePart (archived : List ArchivedFile) : List ArchivedFile :=
  archived.takeWhile fun file => Path.isContained file.path

def refused? (archived : List ArchivedFile) : Option ArchivedFile :=
  archived.find? fun file => !Path.isContained file.path

theorem isContained_of_mem_safePart {archived : List ArchivedFile} {file : ArchivedFile}
    (h : file ∈ safePart archived) : Path.isContained file.path :=
  List.all_eq_true.mp List.all_takeWhile file h

/-- An archive is the part that is written, and what begins with the file that is refused. -/
theorem exists_eq_safePart_append {archived : List ArchivedFile} {bad : ArchivedFile}
    (h : refused? archived = some bad) : ∃ rest, archived = safePart archived ++ bad :: rest := by
  induction archived with
  | nil => cases h
  | cons file rest ih =>
    rw [refused?, List.find?_cons] at h
    rw [safePart, List.takeWhile_cons]
    cases hcontained : Path.isContained file.path with
    | true =>
      obtain ⟨later, hlater⟩ := ih (by simpa [refused?, hcontained] using h)
      exact ⟨later, by rw [if_pos rfl, List.cons_append, ← safePart, ← hlater]⟩
    | false =>
      obtain rfl : file = bad := by simpa [hcontained] using h
      exact ⟨rest, rfl⟩

/-- Unpacking writes the part before the first refused path and then stops. -/
theorem restoreFiles_eq_safePart (files : FileSystem) (directory : String)
    (archived : List ArchivedFile) : restoreFiles files directory archived =
      match restoreFiles files directory (safePart archived), refused? archived with
      | (files, .ok ()), some bad => (files, .error (.unsafePath bad.path))
      | written, _ => written := by
  induction archived generalizing files with
  | nil => rfl
  | cons file rest ih =>
    cases hcontained : Path.isContained file.path with
    | false =>
      have hpart : safePart (file :: rest) = [] := by simp [safePart, hcontained]
      have hbad : refused? (file :: rest) = some file := by simp [refused?, hcontained]
      rw [hpart, hbad]
      simp [restoreFiles, restoreFile, hcontained]
    | true =>
      have hpart : safePart (file :: rest) = file :: safePart rest := by
        simp [safePart, hcontained]
      have hbad : refused? (file :: rest) = refused? rest := by simp [refused?, hcontained]
      rw [hpart, hbad, restoreFiles, restoreFiles]
      cases hfile : restoreFile files directory file with
      | mk made result =>
        cases result with
        | ok _ => exact ih made
        | error e => rfl

/-! ### What is kept -/

/-- What a file that is unpacked adds: directories, and a file unless something fails. -/
theorem restoreFile_cases (files : FileSystem) (directory : String) (file : ArchivedFile) :
    (restoreFile files directory file = (files, .error (.unsafePath file.path)) ∧
      ¬Path.isContained file.path) ∨
    Path.isContained file.path ∧ ∃ parent,
      parent = (Path.parent? (Path.join directory file.path)).getD "" ∧
      ((∃ cause, restoreFile files directory file =
          ((files.makeDirectories parent).1, .error (.directory parent cause))) ∨
        (∃ cause, restoreFile files directory file =
          ((files.makeDirectories parent).1, .error (.file (Path.join directory file.path) cause))) ∨
        ∃ written, restoreFile files directory file = (written, .ok ()) ∧
          (files.makeDirectories parent).1.write (Path.join directory file.path) file.contents =
            .ok written) := by
  cases hcontained : Path.isContained file.path with
  | false => exact .inl ⟨by simp [restoreFile, hcontained], by simp⟩
  | true =>
    refine .inr ⟨rfl, _, rfl, ?_⟩
    simp only [restoreFile, hcontained, Bool.not_true, Bool.false_eq_true, if_false]
    cases hmade : files.makeDirectories ((Path.parent? (Path.join directory file.path)).getD "") with
    | mk made result =>
      cases result with
      | error cause => exact .inl ⟨cause, rfl⟩
      | ok _ =>
        cases hwritten : made.write (Path.join directory file.path) file.contents with
        | error cause => exact .inr (.inl ⟨cause, by simp [hwritten]⟩)
        | ok written => exact .inr (.inr ⟨written, by simp [hwritten], rfl⟩)

theorem extends_restoreFile (files : FileSystem) (directory : String) (file : ArchivedFile) :
    files.Extends (restoreFile files directory file).1 := by
  rcases restoreFile_cases files directory file with ⟨h, -⟩ | ⟨-, parent, -, h⟩
  · rw [h]
    exact .refl files
  have hmade := extends_makeDirectories files parent
  rcases h with ⟨cause, h⟩ | ⟨cause, h⟩ | ⟨written, h, hwritten⟩
  · rwa [h]
  · rwa [h]
  · rw [h]
    exact hmade.trans (extends_write hwritten)

theorem extends_restoreFiles (files : FileSystem) (directory : String)
    (archived : List ArchivedFile) :
    files.Extends (restoreFiles files directory archived).1 := by
  induction archived generalizing files with
  | nil => exact .refl files
  | cons file rest ih =>
    have hfile := extends_restoreFile files directory file
    rw [restoreFiles]
    split
    · next made h =>
        rw [h] at hfile
        exact hfile.trans (ih made)
    · exact hfile

theorem isFile_of_restoreFiles {files left : FileSystem} {directory : String}
    {archived : List ArchivedFile}
    (h : restoreFiles files directory archived = (left, .ok ())) {file : ArchivedFile}
    (hmem : file ∈ archived) : left.isFile (Path.join directory file.path) := by
  induction archived generalizing files with
  | nil => cases hmem
  | cons first rest ih =>
    rw [restoreFiles] at h
    split at h
    · next made hfirst =>
        rcases List.mem_cons.mp hmem with rfl | hmem
        · have hlater := extends_restoreFiles made directory rest
          rw [h] at hlater
          rcases restoreFile_cases files directory file with ⟨he, -⟩ | ⟨-, parent, -, he⟩
          · rw [hfirst] at he
            cases he
          rw [hfirst] at he
          rcases he with ⟨cause, he⟩ | ⟨cause, he⟩ | ⟨written, he, hwritten⟩
          · cases he
          · cases he
          · cases he
            exact hlater.isFile (isFile_of_write hwritten)
        · exact ih h hmem
    · next hfailed => exact absurd h (hfailed left)

end BuildMatrix.Archive
