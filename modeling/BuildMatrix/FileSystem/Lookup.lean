import BuildMatrix.FileSystem.Node
import BuildMatrix.FileSystem.Path

/-!
# Looking up paths

A path is looked up from the root or from the working directory. A link on the way is followed, the
last one on demand, and at most forty in all. A path whose last name alone is missing is found
absent in its directory, where it can be made.
-/

namespace BuildMatrix

/-- Why an operation on files fails. -/
inductive FileError where
  | missing
  | badFormat
  | denied
  | exists
  | notDirectory
  | isDirectory
  | badArgument
  | nameTooLong
  | notEmpty
  | tooManyLinks
  | nulInName
  | notText
  /-- What is copied is no file. -/
  | notFile
deriving DecidableEq, Repr

/-- The text of an error, with its number if the system has one for it. -/
def FileError.message : FileError → String
  | .missing => "No such file or directory (os error 2)"
  | .badFormat => "Exec format error (os error 8)"
  | .denied => "Permission denied (os error 13)"
  | .exists => "File exists (os error 17)"
  | .notDirectory => "Not a directory (os error 20)"
  | .isDirectory => "Is a directory (os error 21)"
  | .badArgument => "Invalid argument (os error 22)"
  | .nameTooLong => "File name too long (os error 36)"
  | .notEmpty => "Directory not empty (os error 39)"
  | .tooManyLinks => "Too many levels of symbolic links (os error 40)"
  | .nulInName => "file name contained an unexpected NUL byte"
  | .notText => "stream did not contain valid UTF-8"
  | .notFile => "the source path is neither a regular file nor a symlink to a regular file"

/-- All files of a host, and the directory at which relative paths start. -/
structure FileSystem where
  root : Node
  workingDirectory : Location
deriving Repr

/-- What a path leads to. -/
inductive Place where
  | present (location : Location) (node : Node)
  | absent (location : Location)
deriving Repr

namespace FileSystem

def empty : FileSystem := ⟨.directory .nil, []⟩

/-- The number of links that a path may lead through. -/
def linkLimit : Nat := 40

/-- The longest name and the longest path, in bytes. -/
def nameLimit : Nat := 255

/-- The least number of bytes of a path that is too long. -/
def pathLimit : Nat := 4096

/-- Follows names from a location; `enter` tells what a link leads to with the names behind it. -/
def walkNames (root : Node) (follow : Bool)
    (enter : Location → String → List String → Except FileError Place) :
    Location → List String → Except FileError Place
  | location, [] => match root.get? location with
    | some node => .ok (.present location node)
    | none => .error .missing
  | location, name :: rest =>
    match root.get? location with
    | some (.directory entries) =>
      if name = "." then walkNames root follow enter location rest
      else if name = ".." then walkNames root follow enter location.dropLast rest
      else if name.utf8ByteSize > nameLimit then .error .nameTooLong
      else match entries.find? name with
        | none => if rest.isEmpty then .ok (.absent (location ++ [name])) else .error .missing
        | some (.link target) =>
          if rest.isEmpty && !follow then .ok (.present (location ++ [name]) (.link target))
          else enter location target rest
        | some _ => walkNames root follow enter (location ++ [name]) rest
    | some _ => .error .notDirectory
    | none => .error .missing

/-- Follows names from a location, through links as often as is left. -/
def walk (root : Node) (follow : Bool) :
    (links : Nat) → Location → List String → Except FileError Place
  | 0 => walkNames root follow fun _ _ _ => .error .tooManyLinks
  | links + 1 => walkNames root follow fun location target rest =>
    if target.isEmpty then .error .missing
    else
      let start := if Path.isAbsolute target then [] else location
      walk root follow links start (Path.names target ++ rest)

/-- Looks a path up; a slash at its end stands for a directory. -/
def lookup (fs : FileSystem) (follow : Bool) (path : String) : Except FileError Place :=
  if path.toList.contains (Char.ofNat 0) then .error .nulInName
  else if path.isEmpty then .error .missing
  else if path.utf8ByteSize ≥ pathLimit then .error .nameTooLong
  else
    let start := if Path.isAbsolute path then [] else fs.workingDirectory
    let slash := Path.endsInSlash path
    match walk fs.root (follow || slash) linkLimit start (Path.names path) with
    | .ok (.present location node) =>
      match node with
      | .directory _ => .ok (.present location node)
      | _ => if slash then .error .notDirectory else .ok (.present location node)
    | result => result

end FileSystem

end BuildMatrix
