import BuildMatrix.Yaml.Cursor

/-!
# Block scalars

A block scalar is a header and the lines that are indented below it. A literal one keeps its line
breaks; a folded one joins lines that start with no blank. The header may give the indentation and
say whether line breaks at the end are kept.
-/

namespace BuildMatrix.Yaml.Lexeme

/-- What becomes of the line breaks at the end of a block scalar. -/
inductive Chomping where
  /-- The last one is kept. -/
  | clip
  /-- None is kept. -/
  | strip
  | keep
deriving DecidableEq, Repr

def chomping? (c : Cursor) : Option Chomping :=
  if c.sees '+' then some .keep else if c.sees '-' then some .strip else none

/-- The header of a block scalar: chomping and the number of columns by which it is indented. -/
structure Header where
  chomping : Chomping
  increment : Option Nat
deriving DecidableEq, Repr

/-- An indentation indicator, which is no zero. -/
def increment? (c : Cursor) : Option (Option Nat × Cursor) :=
  match c.peek? with
  | some char =>
    if char = '0' then none
    else if char.isDigit then some (some (char.toNat - 48), c.skip 1)
    else some (none, c)
  | none => some (none, c)

/-- The header; its two indicators may come in either order. -/
def header? (c : Cursor) : Option (Header × Cursor) := do
  match chomping? c with
  | some chomping =>
    let (increment, c) ← increment? (c.skip 1)
    some (⟨chomping, increment⟩, ← c.endLine?)
  | none =>
    let (increment, c) ← increment? c
    match increment.bind fun _ => chomping? c with
    | some chomping => some (⟨chomping, increment⟩, ← (c.skip 1).endLine?)
    | none => some (⟨.clip, increment⟩, ← c.endLine?)

/--
Passes the empty lines here and the indentation after them; without an indentation all spaces are
passed. The results are the line breaks and the largest column that was reached. No tab may stand
in the indentation.
-/
def emptyLines? (indent : Option Nat) :
    (fuel : Nat) → (breaks : List Char) → (widest : Nat) → Cursor →
      Option (List Char × Nat × Cursor)
  | 0, breaks, widest, c => some (breaks, widest, c)
  | fuel + 1, breaks, widest, c =>
    let spaces := (c.rest.takeWhile (· = ' ')).length
    let c := c.skip (match indent with
      | some indent => min spaces (indent - c.column)
      | none => spaces)
    let widest := max widest c.column
    if c.sees '\t' && (match indent with
      | some indent => c.column < indent
      | none => true) then none
    else if c.peek?.any isBreak then
      let (text, c) := c.takeBreak
      emptyLines? indent fuel (breaks ++ text) widest c
    else some (breaks, widest, c)

/--
The lines of a block scalar whose indentation is known. The arguments are the text so far, the break
that ended the line before, the breaks of empty lines after it, and whether that line starts with a
blank.
-/
def blockLines? (folded : Bool) (indent : Nat) (chomping : Chomping) :
    (fuel : Nat) → (text lineBreak emptyBreaks : List Char) → (afterBlank : Bool) → Cursor →
      Option (List Char × Cursor)
  | 0, text, _, _, _, c => some (text, c)
  | fuel + 1, text, lineBreak, emptyBreaks, afterBlank, c =>
    if c.column = indent && !c.rest.isEmpty then do
      let startsBlank := c.peek?.any isBlank
      let joint :=
        if folded && lineBreak.head? = some '\n' && !afterBlank && !startsBlank then
          if emptyBreaks.isEmpty then [' '] else []
        else lineBreak
      let (line, c) := c.span fun char => !isBreak char
      let (lineBreak, c) := c.takeBreak
      let (breaks, _, c) ← emptyLines? (some indent) (c.rest.length + 1) [] 0 c
      blockLines? folded indent chomping fuel (text ++ joint ++ emptyBreaks ++ line) lineBreak
        breaks startsBlank c
    else match chomping with
      | .strip => some (text, c)
      | .clip => some (text ++ lineBreak, c)
      | .keep => some (text ++ lineBreak ++ emptyBreaks, c)

/-- A block scalar after its indicator, in a collection whose indentation is `parent`. -/
def block? (folded : Bool) (parent : Int) (c : Cursor) : Option (String × Cursor) := do
  let (header, c) ← header? c
  let given := header.increment.map fun n => (max parent 0).toNat + n
  let (breaks, widest, c) ← emptyLines? given (c.rest.length + 1) [] 0 c
  let indent := given.getD (max widest (max (parent + 1).toNat 1))
  let (text, c) ← blockLines? folded indent header.chomping (c.rest.length + 1) [] [] breaks false c
  some (String.ofList text, c)

end BuildMatrix.Yaml.Lexeme
