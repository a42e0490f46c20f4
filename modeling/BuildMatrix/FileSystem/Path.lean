import BuildMatrix.Text.Split

/-!
# Paths

A path is a text whose names are separated by slashes. Joining keeps the text of both parts, so a
path reads back as it was written; only the parent and the components of a path look through
repeated slashes and dots.
-/

namespace BuildMatrix.Path

def isAbsolute (path : String) : Bool := path.toList.head? = some '/'

/-- Whether a path ends in a slash, and so names a directory. -/
def endsInSlash (path : String) : Bool := path.toList.getLast? = some '/'

/-- Appends a path; an absolute one takes the place of the base. -/
def join (base path : String) : String :=
  if isAbsolute path then path
  else if base.isEmpty || endsInSlash base then base ++ path
  else base ++ "/" ++ path

/-- The names between slashes; dots are names like any other. -/
def names (path : String) : List String :=
  ((Text.splitAt '/' path.toList).filter fun part => !part.isEmpty).map String.ofList

inductive Component where
  | root
  | here
  | up
  | name (text : String)
deriving DecidableEq, Repr

def inner? (name : String) : Option Component :=
  if name = "." then none else if name = ".." then some .up else some (.name name)

/-- The steps of a path. A dot is a step only at the start of a relative path. -/
def components (path : String) : List Component :=
  let names := names path
  if isAbsolute path then .root :: names.filterMap inner?
  else match names with
    | "." :: rest => .here :: rest.filterMap inner?
    | names => names.filterMap inner?

/--
The reverse of a path without the slashes and single dots at its end. A dot that is the whole of a
relative path stays.
-/
def dropTrailing : List Char → List Char
  | '/' :: c :: s => dropTrailing (c :: s)
  | '.' :: '/' :: c :: s => dropTrailing (c :: s)
  | '.' :: '/' :: [] => ['/']
  | s => s

/-- The directory that a path is in; none for the root and the empty path. -/
def parent? (path : String) : Option String :=
  let reversed := dropTrailing path.toList.reverse
  if reversed.isEmpty || reversed = ['/'] then none
  else
    let rest := reversed.dropWhile (· != '/')
    some (String.ofList (dropTrailing rest).reverse)

/-- Whether a path stays below the directory that it is joined to: it has names and nothing else. -/
def isContained (path : String) : Bool :=
  !path.isEmpty && (components path).all fun c => match c with
    | .name _ => true
    | _ => false

/-- The path of a location, given by its names from the root. -/
def ofLocation (names : List String) : String := "/" ++ Text.joinWith "/" names

end BuildMatrix.Path
