import BuildMatrix.FileSystem.Operations
import BuildMatrix.Matrix.Plan
import BuildMatrix.Text.Quoted

/-!
# Workspaces

The run of a plan works in a copy of the package root that no other run uses. The copy leaves out
directories that hold the state of tools and the results of builds, and it leaves out itself if it
is made inside of the package root. Links are copied as links.
-/

namespace BuildMatrix

inductive WorkspaceError where
  /-- The directory of the workspace cannot be made. -/
  | create (path : String) (cause : FileError)
  | readDirectory (path : String) (cause : FileError)
  | makeDirectory (path : String) (cause : FileError)
  | copyFile (path : String) (cause : FileError)
  | readLink (cause : FileError)
  | makeLink (path : String) (cause : FileError)
deriving DecidableEq, Repr

namespace WorkspaceError

/-- The texts shown to the user, the cause last. -/
def chain : WorkspaceError → List String
  | create path cause =>
    ["Failed to create run workspace", cause.message ++ " at path " ++ Text.quoted path]
  | readDirectory path cause => [s!"Failed to read {path}", cause.message]
  | makeDirectory path cause => [s!"Failed to create {path}", cause.message]
  | copyFile path cause => [s!"Failed to copy {path}", cause.message]
  | readLink cause => [cause.message]
  | makeLink path cause => [s!"Failed to link {path}", cause.message]

def message (e : WorkspaceError) : String := Text.joinWith ": " e.chain

end WorkspaceError

/-- A private copy of the package root. -/
structure Workspace where
  path : String
deriving DecidableEq, Repr

namespace Workspace

/-- The names of directories that are left out of copies. -/
def skippedNames : List String := [".git", ".pytest_cache", ".tox", "__pycache__", "build"]

/-- Whether a directory is left out of copies because of its name. -/
def isSkipped (name : String) : Bool :=
  skippedNames.contains name || Text.endsWith ".egg-info".toList name.toList

/-- Copies one entry of a directory; `enter` copies a directory. The directory with the components
`own` is not entered. -/
def copyEntry (enter : String → String → FileSystem → FileSystem × Except WorkspaceError Nat)
    (own : List Path.Component) (source target name : String) :
    EntryKind → FileSystem → FileSystem × Except WorkspaceError Nat
  | .directory, files =>
    let sourcePath := Path.join source name
    if Path.components sourcePath = own || isSkipped name then (files, .ok 0)
    else enter sourcePath (Path.join target name) files
  | .file, files =>
    let sourcePath := Path.join source name
    match files.copyFile sourcePath (Path.join target name) with
    | .error cause => (files, .error (.copyFile sourcePath cause))
    | .ok files => (files, .ok 1)
  | .link, files =>
    let targetPath := Path.join target name
    match files.readLink (Path.join source name) with
    | .error cause => (files, .error (.readLink cause))
    | .ok link =>
      match files.makeLink link targetPath with
      | .error cause => (files, .error (.makeLink targetPath cause))
      | .ok files => (files, .ok 1)

/-- Copies the listed entries of the directory `source` into the directory `target`, and gives the
number of files and links. -/
def copyEntries (enter : String → String → FileSystem → FileSystem × Except WorkspaceError Nat)
    (own : List Path.Component) (source target : String) :
    List (String × EntryKind) → FileSystem → FileSystem × Except WorkspaceError Nat
  | [], files => (files, .ok 0)
  | (name, kind) :: rest, files =>
    match copyEntry enter own source target name kind files with
    | (files, .error e) => (files, .error e)
    | (files, .ok count) =>
      match copyEntries enter own source target rest files with
      | (files, .error e) => (files, .error e)
      | (files, .ok further) => (files, .ok (count + further))

/-- Copies the directory `source` to `target`, with at most `fuel` directories within each other.
Each directory is listed after its copy was made. -/
def copyWithin (own : List Path.Component) : (fuel : Nat) → (source target : String) →
    FileSystem → FileSystem × Except WorkspaceError Nat
  | fuel, source, target, files =>
    match files.makeDirectories target with
    | (files, .error cause) => (files, .error (.makeDirectory target cause))
    | (files, .ok ()) =>
      match files.readDirectory source with
      | .error cause => (files, .error (.readDirectory source cause))
      | .ok entries =>
        match fuel with
        | 0 => (files, .error (.readDirectory source .nameTooLong))
        | fuel + 1 => copyEntries (copyWithin own fuel) own source target entries.kinds files

/-- Copies the directory `source` to `target`, which is not entered. Every directory that is entered
has a longer path than the one before, so the paths are too long before the fuel is used up. -/
def copyTree (files : FileSystem) (source target : String) :
    FileSystem × Except WorkspaceError Nat :=
  copyWithin (Path.components target) FileSystem.pathLimit source target files

/-- What the names of the workspaces of a plan start with. -/
def nameStem (plan : Plan) : String := "ci-matrix-" ++ plan.slug ++ "-"

/-- The end of the name of a workspace, which tells it from others of the same plan. -/
def suffix (n : Nat) : String :=
  let digits := toString n
  String.ofList (List.replicate (6 - digits.length) '0') ++ digits

def isFree (files : FileSystem) (path : String) : Bool :=
  match files.lookup false path with
  | .ok (.present _ _) => false
  | _ => true

/-- A path in a directory that nothing has yet. -/
def freshPath (files : FileSystem) (temporary : String) (plan : Plan) : String :=
  let taken := match files.readDirectory temporary with
    | .ok entries => entries.toList.length
    | .error _ => 0
  let paths := (List.range (taken + 1)).map fun n =>
    Path.join temporary (nameStem plan ++ suffix n)
  (paths.find? (isFree files)).getD (Path.join temporary (nameStem plan ++ suffix taken))

def remove (files : FileSystem) (workspace : Workspace) : FileSystem :=
  files.removeAll workspace.path

/-- Makes a workspace in the directory `temporary`; after a failure nothing is left of it. -/
def stage (files : FileSystem) (temporary source : String) (plan : Plan) :
    FileSystem × Except WorkspaceError Workspace :=
  let path := freshPath files temporary plan
  match files.makeDirectory path with
  | .error cause => (files, .error (.create path cause))
  | .ok files =>
    match copyTree files source path with
    | (files, .ok _) => (files, .ok ⟨path⟩)
    | (files, .error e) => (remove files ⟨path⟩, .error e)

end Workspace

end BuildMatrix
