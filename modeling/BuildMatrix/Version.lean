import BuildMatrix.Text.Digit
import BuildMatrix.Text.Split

/-!
# Interpreter versions

An interpreter reports its release in a line such as `Python 3.8.10`. A request names a release by
its leading components, so `3.8` accepts `3.8.10` and not `3.80`.
-/

namespace BuildMatrix.Version

/-- What precedes the version in the output of an interpreter. -/
def announcement : List Char := "Python ".toList

/-- A dot and the digits after it, if at least one digit follows the dot. -/
def dottedDigits? : List Char → Option (List Char)
  | '.' :: s =>
    match s.takeWhile Text.isDigit with
    | [] => none
    | digits => some ('.' :: digits)
  | _ => none

/-- The version at the start of a text: two components and, if there is one, a third. -/
def leading? (s : List Char) : Option (List Char) :=
  match s.takeWhile Text.isDigit with
  | [] => none
  | major =>
    let rest := s.dropWhile Text.isDigit
    (dottedDigits? rest).map fun minor =>
      major ++ minor ++ (dottedDigits? (rest.drop minor.length)).getD []

/-- The version after the first announcement that one follows. -/
def reportedIn? : List Char → Option (List Char)
  | [] => none
  | c :: s =>
    match (Text.after? announcement (c :: s)).bind leading? with
    | some version => some version
    | none => reportedIn? s

def reported? (output : String) : Option String := (reportedIn? output.toList).map String.ofList

def satisfies (requested reported : String) : Bool :=
  reported == requested || Text.startsWith (requested.toList ++ ['.']) reported.toList

end BuildMatrix.Version
