import BuildMatrix.FileSystem.Operations

/-!
# Layouts

A layout describes files to be made below a directory, one after the other, with the directories
that they need.
-/

namespace BuildMatrix

inductive LayoutItem where
  | file (contents : Bytes) (executable : Bool)
  | directory
  | link (target : String)
deriving DecidableEq, Repr

/-- Items by path relative to the directory in which the layout is made. -/
abbrev Layout := List (String × LayoutItem)

namespace Layout

def withParent (fs : FileSystem) (path : String) : FileSystem :=
  (fs.makeDirectories ((Path.parent? path).getD "")).1

/-- Makes one item; one that cannot be made is left out. -/
def makeItem (fs : FileSystem) (path : String) : LayoutItem → FileSystem
  | .directory => (fs.makeDirectories path).1
  | .file contents executable =>
    let fs := withParent fs path
    match fs.write path contents with
    | .error _ => fs
    | .ok fs => if executable then (fs.setExecutable path true).toOption.getD fs else fs
  | .link target =>
    let fs := withParent fs path
    (fs.makeLink target path).toOption.getD fs

def make (base : String) (fs : FileSystem) (layout : Layout) : FileSystem :=
  layout.foldl (fun fs (path, item) => makeItem fs (Path.join base path) item) fs

end Layout

end BuildMatrix
