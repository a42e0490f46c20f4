import BuildMatrix.FileSystem.Operations
import BuildMatrix.Shell.Octets
import BuildMatrix.Shell.Pattern

/-!
# Fields

The parts of a word become the arguments of a command. What a parameter or another script gives
without quotes is cut at separators; an unquoted pattern becomes the paths that it describes.
-/

namespace BuildMatrix.Shell

/-- What a part of a word gives. -/
inductive Fragment where
  | kept (text : List Char) (quoted : Bool)
  | loose (text : List Char)
  /-- The border between two arguments. -/
  | border
deriving DecidableEq, Repr

/-- The fields that are complete and the one that is not, if there is one. -/
structure Fields where
  complete : List Marked
  current : Option Marked
deriving DecidableEq, Repr

namespace Fields

def add (f : Fields) (text : Marked) : Fields :=
  { f with current := some (f.current.getD [] ++ text) }

/-- Ends the current field, if there is one. -/
def close (f : Fields) : Fields :=
  match f.current with
  | some field => ⟨f.complete ++ [field], none⟩
  | none => f

/-- Adds characters that are cut at separators. Blank separators in a row count as one. -/
def addLoose (separators : List Char) (f : Fields) (c : Char) : Fields :=
  if !separators.contains c then f.add [(c, false)]
  else if c = ' ' || c = '\t' || c = '\n' then f.close
  else ⟨f.complete ++ [f.current.getD []], none⟩

def addFragment (separators : List Char) (f : Fields) : Fragment → Fields
  | .kept text quoted =>
    if text.isEmpty && !quoted then f else f.add (text.map fun c => (c, quoted))
  | .loose text => text.foldl (addLoose separators) f
  | .border => f.close

def ofFragments (separators : List Char) (fragments : List Fragment) : List Marked :=
  (fragments.foldl (addFragment separators) ⟨[], none⟩).close.complete

end Fields

def joined (fragments : List Fragment) : Marked :=
  fragments.flatMap fun
    | .kept text quoted => text.map fun c => (c, quoted)
    | .loose text => text.map fun c => (c, false)
    | .border => [(' ', true)]

def unmarked (s : Marked) : List Char := s.map (·.1)

/-- Cuts marked characters at slashes. -/
def pathParts : Marked → List Marked
  | [] => [[]]
  | (c, quoted) :: s =>
    if c = '/' then [] :: pathParts s
    else match pathParts s with
      | [] => [[(c, quoted)]]
      | part :: parts => ((c, quoted) :: part) :: parts

def namesIn (files : FileSystem) (directory : String) : List String :=
  match files.readDirectory directory with
  | .ok entries => (entries.toList.map fun e => e.1).mergeSort fun a b => !decide (b < a)
  | .error _ => []

/--
The paths that the rest of a pattern describes after the path `found`, a text of a shell. Relative
paths start at the directory `base`.
-/
def pathsFrom (files : FileSystem) (base found : String) : List Marked → List String
  | [] => [found]
  | part :: rest =>
    let pattern := Pattern.ofMarked part
    let separator := if rest.isEmpty then "" else "/"
    if !pattern.isGeneral then
      let path := found ++ String.ofList (unmarked part)
      if rest.isEmpty then
        match files.lookup false (Path.join base (toText path)) with
        | .ok (.present _ _) => [path]
        | _ => []
      else pathsFrom files base (path ++ separator) rest
    else
      let hidden := (unmarked part).head? = some '.'
      let directory := toText (if found.isEmpty then "." else found)
      let names := (namesIn files (Path.join base directory)).map ofText
      (names.filter fun name =>
        pattern.fits name.toList && (hidden || name.toList.head? != some '.')).flatMap fun name =>
          pathsFrom files base (found ++ name ++ separator) rest

/-- The arguments that a field stands for: the paths of a pattern, if there are any, or itself. -/
def argumentsOf (files : FileSystem) (base : String) (field : Marked) : List String :=
  let itself := [String.ofList (unmarked field)]
  if !(Pattern.ofMarked field).isGeneral then itself
  else match pathsFrom files base "" (pathParts field) with
    | [] => itself
    | paths => paths

end BuildMatrix.Shell
