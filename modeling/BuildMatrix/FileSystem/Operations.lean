import BuildMatrix.FileSystem.Lookup

/-!
# Operations on files

Each operation takes a file system and a path, and gives an error or its result. Operations that
change files give the changed file system. One that fails changes nothing, apart from directories
made on the way to another one.
-/

namespace BuildMatrix.FileSystem

/-- The file system with a node put at a location. -/
def placeAt (fs : FileSystem) (location : Location) (node : Node) : FileSystem :=
  { fs with root := fs.root.place location node }

/-- The node that a path leads to, links followed. -/
def node? (fs : FileSystem) (path : String) : Option Node :=
  match fs.lookup true path with
  | .ok (.present _ node) => some node
  | _ => none

def isDirectory (fs : FileSystem) (path : String) : Bool :=
  match fs.node? path with
  | some (.directory _) => true
  | _ => false

def isFile (fs : FileSystem) (path : String) : Bool :=
  match fs.node? path with
  | some (.file ..) => true
  | _ => false

/-- The contents of the file that a path leads to. -/
def read (fs : FileSystem) (path : String) : Except FileError Bytes := do
  match ← fs.lookup true path with
  | .present _ (.file contents _) => pure contents
  | .present _ _ => throw .isDirectory
  | .absent _ => throw .missing

def readText (fs : FileSystem) (path : String) : Except FileError String := do
  match Utf8.decode? (← fs.read path) with
  | some text => pure text
  | none => throw .notText

/-- The entries of the directory that a path leads to. -/
def readDirectory (fs : FileSystem) (path : String) : Except FileError Entries := do
  match ← fs.lookup true path with
  | .present _ (.directory entries) => pure entries
  | .present _ _ => throw .notDirectory
  | .absent _ => throw .missing

/-- Writes a file, a new one or in the place of the contents of an old one. -/
def write (fs : FileSystem) (path : String) (contents : Bytes) : Except FileError FileSystem := do
  match ← fs.lookup true path with
  | .present location (.file _ executable) =>
    pure (fs.placeAt location (.file contents executable))
  | .present _ _ => throw .isDirectory
  | .absent location =>
    if Path.endsInSlash path then throw .isDirectory
    else pure (fs.placeAt location (.file contents false))

/-- Sets whether the file that a path leads to may be executed. -/
def setExecutable (fs : FileSystem) (path : String) (executable : Bool) :
    Except FileError FileSystem := do
  match ← fs.lookup true path with
  | .present location (.file contents _) => pure (fs.placeAt location (.file contents executable))
  | .present _ _ => pure fs
  | .absent _ => throw .missing

/-- Copies the file that a path leads to, with whether it may be executed. -/
def copyFile (fs : FileSystem) (source target : String) : Except FileError FileSystem := do
  match ← fs.lookup true source with
  | .present _ (.file contents executable) =>
    (← fs.write target contents).setExecutable target executable
  | .present _ _ => throw .notFile
  | .absent _ => throw .missing

def makeDirectory (fs : FileSystem) (path : String) : Except FileError FileSystem := do
  match ← fs.lookup false path with
  | .present _ _ => throw .exists
  | .absent location => pure (fs.placeAt location (.directory .nil))

def ensureDirectory (fs : FileSystem) (path : String) : FileSystem × Except FileError Unit :=
  match fs.makeDirectory path with
  | .ok fs => (fs, .ok ())
  | .error e => (fs, if fs.isDirectory path then .ok () else .error e)

/--
Makes a directory and the missing ones above it, at most `fuel` of them. Directories that were made
before a failure stay.
-/
def makeDirectoriesWithin : (fuel : Nat) → FileSystem → String →
    FileSystem × Except FileError Unit
  | 0, fs, path => if path.isEmpty then (fs, .ok ()) else fs.ensureDirectory path
  | fuel + 1, fs, path =>
    if path.isEmpty then (fs, .ok ())
    else match fs.makeDirectory path with
      | .error .missing =>
        match Path.parent? path with
        | none => (fs, .error .missing)
        | some parent =>
          match makeDirectoriesWithin fuel fs parent with
          | (fs, .ok ()) => fs.ensureDirectory path
          | failed => failed
      | _ => fs.ensureDirectory path

def makeDirectories (fs : FileSystem) (path : String) : FileSystem × Except FileError Unit :=
  makeDirectoriesWithin path.length fs path

def makeLink (fs : FileSystem) (target path : String) : Except FileError FileSystem := do
  match ← fs.lookup false path with
  | .present _ _ => throw .exists
  | .absent location => pure (fs.placeAt location (.link target))

/-- Where the link that a path names leads. -/
def readLink (fs : FileSystem) (path : String) : Except FileError String := do
  match ← fs.lookup false path with
  | .present _ (.link target) => pure target
  | .present _ _ => throw .badArgument
  | .absent _ => throw .missing

/-- Removes what a path names, with all that a directory holds. -/
def removeAll (fs : FileSystem) (path : String) : FileSystem :=
  match fs.lookup false path with
  | .ok (.present location _) => { fs with root := fs.root.remove location }
  | _ => fs

/-- The directory that a path leads to, as a path without links. -/
def canonical (fs : FileSystem) (path : String) : Except FileError String := do
  match ← fs.lookup true path with
  | .present location _ => pure (Path.ofLocation location)
  | .absent _ => throw .missing

/-- Every node below the directory that a path names, by relative path in ascending order. -/
def listing (fs : FileSystem) (path : String) : List (String × Node) :=
  match fs.lookup true path with
  | .ok (.present _ node) =>
    ((node.descendants []).map fun (location, node) => (Text.joinWith "/" location, node)).mergeSort
      fun a b => !decide (b.1 < a.1)
  | _ => []

end BuildMatrix.FileSystem
