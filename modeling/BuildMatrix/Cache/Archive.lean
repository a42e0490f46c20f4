import BuildMatrix.FileSystem.Operations
import BuildMatrix.Json.Printer
import BuildMatrix.Json.Reader

/-!
# Cache archives

The files of a cache directory are stored as one payload: a JSON document with the path and the
bytes of each regular file, in ascending order of the paths. Links and empty directories are left
out. Every directory and every file is opened by its path, so packing fails where a path is too
long.

Restoring a payload writes the files one after the other. A path that could lead out of the
directory is refused when its turn comes.
-/

namespace BuildMatrix

/-- A regular file with its path relative to the directory that was packed. -/
structure ArchivedFile where
  path : String
  contents : Bytes
deriving DecidableEq, Repr

/-- The packed files of a directory. -/
structure Archive where
  files : List ArchivedFile
deriving DecidableEq, Repr

/-- Why a directory is not packed, or an archive is not restored, or not completely. -/
inductive ArchiveError where
  | unreadable (path : String) (cause : FileError)
  | undecodable
  | unsafePath (path : String)
  | directory (path : String) (cause : FileError)
  | file (path : String) (cause : FileError)
deriving DecidableEq, Repr

/-- The texts shown to the user, the cause last. -/
def ArchiveError.chain : ArchiveError → List String
  | unreadable path cause => [s!"Failed to read {path}", cause.message]
  | undecodable => ["Failed to decode cache archive"]
  | unsafePath path => [s!"Refusing to restore unsafe cache path '{path}'"]
  | directory path cause => [s!"Failed to create {path}", cause.message]
  | file path cause => [s!"Failed to write {path}", cause.message]

namespace Archive

/-- Whether a file may stand before another. -/
def precedes (a b : ArchivedFile) : Bool := !decide (b.path < a.path)

/-- The files in the order of their paths. -/
def ofFiles (files : List ArchivedFile) : Archive := ⟨files.mergeSort precedes⟩

/-- The files of one entry with the path `path`, at a location below the directory that is packed;
`enter` collects a directory. -/
def collectEntry (enter : String → Location → Except ArchiveError (List ArchivedFile))
    (files : FileSystem) (path : String) (location : Location) :
    EntryKind → Except ArchiveError (List ArchivedFile)
  | .directory => enter path location
  | .file =>
    match files.read path with
    | .error cause => .error (.unreadable path cause)
    | .ok contents => .ok [⟨Text.joinWith "/" location, contents⟩]
  | .link => .ok []

/-- The files of the listed entries of the directory `path`. -/
def collectEntries (enter : String → Location → Except ArchiveError (List ArchivedFile))
    (files : FileSystem) (path : String) (location : Location) :
    List (String × EntryKind) → Except ArchiveError (List ArchivedFile)
  | [] => .ok []
  | (name, kind) :: rest => do
    let first ← collectEntry enter files (Path.join path name) (location ++ [name]) kind
    return first ++ (← collectEntries enter files path location rest)

/-- The files below the directory `path`, with at most `fuel` directories within each other. -/
def collectWithin (files : FileSystem) :
    (fuel : Nat) → String → Location → Except ArchiveError (List ArchivedFile)
  | fuel, path, location =>
    match files.readDirectory path with
    | .error cause => .error (.unreadable path cause)
    | .ok entries =>
      match fuel with
      | 0 => .error (.unreadable path .nameTooLong)
      | fuel + 1 => collectEntries (collectWithin files fuel) files path location entries.kinds

/-- Packs the directory that a path leads to; anything else is packed as an empty directory. Every
directory that is entered has a longer path than the one before, so the paths are too long before
the fuel is used up. -/
def ofDirectory (files : FileSystem) (path : String) : Except ArchiveError Archive :=
  if files.isDirectory path then
    (collectWithin files FileSystem.pathLimit path []).map ofFiles
  else .ok ⟨[]⟩

def ascii (text : String) : Bytes := Utf8.encode text

def commaSeparated : List Bytes → Bytes
  | [] => []
  | [part] => part
  | part :: parts => part ++ 0x2C :: commaSeparated parts

def encodeFile (file : ArchivedFile) : Bytes :=
  ascii "\x7b\"path\":" ++ Utf8.encode (Json.quoted file.path) ++ ascii ",\"contents\":["
    ++ commaSeparated (file.contents.map fun b => ascii (toString b.toNat)) ++ ascii "]\x7d"

def encode (archive : Archive) : Bytes :=
  ascii "\x7b\"files\":[" ++ commaSeparated (archive.files.map encodeFile) ++ ascii "]\x7d"

/-- The payload of a directory. -/
def pack (files : FileSystem) (path : String) : Except ArchiveError Bytes :=
  (ofDirectory files path).map encode

/-- The only member of a name; a name that is no text is refused, and so is a repeated member. -/
def field? (name : String) (members : List (Bytes × Json.Source)) : Option Json.Source := do
  let named ← members.mapM fun m => (Json.Source.decodeText? m.1).map (·, m.2)
  match named.filter fun m => m.1 == name with
  | [(_, value)] => some value
  | _ => none

/-- A byte, written as a number without sign, point and exponent. -/
def byte? : Json.Source → Option UInt8
  | .number digits =>
    let value := Json.digitsValue digits
    if digits.all Json.Source.isDigitByte && value < 256 then some (UInt8.ofNat value) else none
  | _ => none

def fileOfParts? (path contents : Json.Source) : Option ArchivedFile :=
  match path, contents with
  | .text body, .array items => do
    some ⟨← Json.Source.decodeText? body, ← items.mapM byte?⟩
  | _, _ => none

/-- Reads a file from a record or from an array of its parts. -/
def readFile? : Json.Source → Option ArchivedFile
  | .object members => do fileOfParts? (← field? "path" members) (← field? "contents" members)
  | .array [path, contents] => fileOfParts? path contents
  | _ => none

def readFiles? : Json.Source → Option Archive
  | .array items => (items.mapM readFile?).map Archive.mk
  | _ => none

/-- Reads a payload. Members of other names are passed over. -/
def decode? (payload : Bytes) : Option Archive := do
  match ← Json.Source.read? payload with
  | .object members => readFiles? (← field? "files" members)
  | .array [files] => readFiles? files
  | _ => none

def restoreFile (files : FileSystem) (directory : String) (file : ArchivedFile) :
    FileSystem × Except ArchiveError Unit :=
  if !Path.isContained file.path then (files, .error (.unsafePath file.path))
  else
    let target := Path.join directory file.path
    let parent := (Path.parent? target).getD ""
    match files.makeDirectories parent with
    | (files, .error cause) => (files, .error (.directory parent cause))
    | (files, .ok ()) =>
      match files.write target file.contents with
      | .ok files => (files, .ok ())
      | .error cause => (files, .error (.file target cause))

/-- Writes files below a directory; after a failure, those before it stay. -/
def restoreFiles (files : FileSystem) (directory : String) : List ArchivedFile →
    FileSystem × Except ArchiveError Unit
  | [] => (files, .ok ())
  | file :: rest =>
    match restoreFile files directory file with
    | (files, .ok ()) => restoreFiles files directory rest
    | failed => failed

/-- Restores a payload below a directory. The result is the number of files; no payload has none. -/
def restore (files : FileSystem) (directory : String) (payload : Bytes) :
    FileSystem × Except ArchiveError Nat :=
  if payload.isEmpty then (files, .ok 0)
  else match decode? payload with
    | none => (files, .error .undecodable)
    | some archive =>
      match restoreFiles files directory archive.files with
      | (files, .ok ()) => (files, .ok archive.files.length)
      | (files, .error e) => (files, .error e)

end Archive

end BuildMatrix
