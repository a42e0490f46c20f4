/-!
# Patterns

A pattern describes texts: an asterisk stands for any text, a question mark for any character, and
brackets for one of the characters or ranges in them, or for any other one if an exclamation mark
or a caret comes first. A quoted character stands for itself.
-/

namespace BuildMatrix.Shell

/-- Characters, each with a mark that tells whether it was quoted. -/
abbrev Marked := List (Char × Bool)

inductive PatternPart where
  | char (c : Char)
  | anyChar
  | anyText
  | oneOf (negated : Bool) (ranges : List (Char × Char))
deriving DecidableEq, Repr

abbrev Pattern := List PatternPart

namespace Pattern

/--
The ranges up to the closing bracket, and what follows it. A bracket that comes first closes
nothing.
-/
def ranges? : (atStart : Bool) → Marked → Option (List (Char × Char) × Marked)
  | _, [] => none
  | _, (low, _) :: ('-', false) :: (high, quoted) :: s =>
    if high = ']' && !quoted then some ([(low, low), ('-', '-')], s)
    else (ranges? false s).map fun (ranges, rest) => ((low, high) :: ranges, rest)
  | atStart, (c, quoted) :: s =>
    if c = ']' && !quoted && !atStart then some ([], s)
    else (ranges? false s).map fun (ranges, rest) => ((c, c) :: ranges, rest)

/-- The part after an opening bracket, and what follows it. -/
def bracket? (s : Marked) : Option (PatternPart × Marked) :=
  match s with
  | (c, false) :: rest =>
    if c = '!' || c = '^' then
      (ranges? true rest).map fun (ranges, rest) => (.oneOf true ranges, rest)
    else (ranges? true s).map fun (ranges, rest) => (.oneOf false ranges, rest)
  | s => (ranges? true s).map fun (ranges, rest) => (.oneOf false ranges, rest)

/-- The parts of a pattern of at most `fuel` characters. -/
def ofMarkedWithin : (fuel : Nat) → Marked → Pattern
  | 0, _ | _, [] => []
  | fuel + 1, (c, quoted) :: s =>
    if quoted then .char c :: ofMarkedWithin fuel s
    else if c = '*' then .anyText :: ofMarkedWithin fuel s
    else if c = '?' then .anyChar :: ofMarkedWithin fuel s
    else if c = '[' then
      match bracket? s with
      | some (part, rest) => part :: ofMarkedWithin fuel rest
      | none => .char c :: ofMarkedWithin fuel s
    else .char c :: ofMarkedWithin fuel s

def ofMarked (s : Marked) : Pattern := ofMarkedWithin s.length s

def PatternPart.accepts (part : PatternPart) (c : Char) : Bool :=
  match part with
  | .char d => c = d
  | .anyChar | .anyText => true
  | .oneOf negated ranges => (ranges.any fun r => r.1 ≤ c && c ≤ r.2) != negated

def fits (pattern : Pattern) (s : List Char) : Bool :=
  match pattern, s with
  | [], [] => true
  | [], _ :: _ => false
  | .anyText :: pattern, [] => fits pattern []
  | .anyText :: pattern, c :: s => fits pattern (c :: s) || fits (.anyText :: pattern) s
  | _ :: _, [] => false
  | part :: pattern, c :: s => PatternPart.accepts part c && fits pattern s
termination_by (pattern.length, s.length)

/-- Whether more than one text may be as the pattern describes. -/
def isGeneral (pattern : Pattern) : Bool :=
  pattern.any fun
    | .char _ => false
    | _ => true

/-- A text without its shortest, or longest, start that a pattern describes. -/
def dropStart (pattern : Pattern) (longest : Bool) (s : List Char) : List Char :=
  let lengths := List.range (s.length + 1)
  let lengths := if longest then lengths.reverse else lengths
  match lengths.find? fun n => fits pattern (s.take n) with
  | some n => s.drop n
  | none => s

/-- A text without its shortest, or longest, end that a pattern describes. -/
def dropEnd (pattern : Pattern) (longest : Bool) (s : List Char) : List Char :=
  let lengths := List.range (s.length + 1)
  let lengths := if longest then lengths else lengths.reverse
  match lengths.find? fun n => fits pattern (s.drop n) with
  | some n => s.take n
  | none => s

end Pattern

end BuildMatrix.Shell
