/-!
# Positions in a YAML text

A cursor is what is left of a text and the position of its first character. Columns matter because
the structure of block collections is given by indentation, lines because an implicit key stands on
one line.
-/

namespace BuildMatrix.Yaml

/-- A space or a tab. -/
def isBlank (c : Char) : Bool := c = ' ' || c = '\t'

def isBreak (c : Char) : Bool :=
  c = '\n' || c = '\r' || c.toNat = 0x85 || c.toNat = 0x2028 || c.toNat = 0x2029

/-- The byte order mark, which may start a line. -/
def isByteOrderMark (c : Char) : Bool := c.toNat = 0xFEFF

def isPrintable (c : Char) : Bool :=
  let n := c.toNat
  n = 0x9 || n = 0xA || n = 0xD || (0x20 ≤ n && n ≤ 0x7E) || n = 0x85 || (0xA0 ≤ n && n ≤ 0xD7FF)
    || (0xE000 ≤ n && n ≤ 0xFFFD) || n ≥ 0x10000

/-- A character of a name: of an anchor, a tag handle or a directive. -/
def isNameChar (c : Char) : Bool := c.isAlphanum || c = '_' || c = '-'

/-- What is left of a text. -/
structure Cursor where
  rest : List Char
  line : Nat
  column : Nat
  /-- The number of characters before. -/
  index : Nat
deriving DecidableEq, Repr

namespace Cursor

def start (text : List Char) : Cursor := ⟨text, 0, 0, 0⟩

def peek? (c : Cursor) : Option Char := c.rest.head?

/-- The character `n` places after the next one. -/
def peekAt? (c : Cursor) (n : Nat) : Option Char := c.rest[n]?

def sees (c : Cursor) (char : Char) : Bool := c.peek? = some char

/-- Whether the character `n` places on is blank, ends a line or is missing. -/
def blankOrEndAt (c : Cursor) (n : Nat) : Bool :=
  (c.peekAt? n).all fun char => isBlank char || isBreak char

def lineEnds (c : Cursor) : Bool := c.peek?.all isBreak

def seesDocumentMarker (c : Cursor) (marker : Char) : Bool :=
  c.column = 0 && c.rest.take 3 = [marker, marker, marker] && c.blankOrEndAt 3

/-- Whether a document starts or ends here. -/
def atDocumentMarker (c : Cursor) : Bool := c.seesDocumentMarker '-' || c.seesDocumentMarker '.'

/-- Passes characters of one line. -/
def skip (c : Cursor) (n : Nat) : Cursor :=
  { c with rest := c.rest.drop n, column := c.column + n, index := c.index + n }

/-- The characters up to the first that is not in a class, and the cursor after them. -/
def span (c : Cursor) (p : Char → Bool) : List Char × Cursor :=
  let taken := c.rest.takeWhile p
  (taken, c.skip taken.length)

def skipWhile (c : Cursor) (p : Char → Bool) : Cursor := (c.span p).2

/-- Passes a line break; most are read as a line feed. -/
def takeBreak (c : Cursor) : List Char × Cursor :=
  let next (rest : List Char) (n : Nat) : Cursor := ⟨rest, c.line + 1, 0, c.index + n⟩
  match c.rest with
  | '\r' :: '\n' :: rest => (['\n'], next rest 2)
  | char :: rest =>
    if char = '\n' || char = '\r' || char.toNat = 0x85 then (['\n'], next rest 1)
    else if isBreak char then ([char], next rest 1)
    else ([], c)
  | [] => ([], c)

def skipBreak (c : Cursor) : Cursor := c.takeBreak.2

/-- Passes blanks, a comment and the line break after them; nothing else may be left of the line. -/
def endLine? (c : Cursor) : Option Cursor :=
  let c := c.skipWhile isBlank
  let c := if c.sees '#' then c.skipWhile fun char => !isBreak char else c
  if c.lineEnds then some c.skipBreak else none

end Cursor

/--
A run of blanks and line breaks inside of a scalar. Breaks are folded: one becomes a space, and of
several the first is dropped.
-/
structure Gap where
  spaces : List Char
  firstBreak : List Char
  otherBreaks : List Char
  broken : Bool
deriving DecidableEq, Repr

namespace Gap

def none : Gap := ⟨[], [], [], false⟩

/-- A gap after a line break that leaves no trace. -/
def afterEscapedBreak : Gap := ⟨[], [], [], true⟩

def text (gap : Gap) : List Char :=
  if !gap.broken then gap.spaces
  else if gap.firstBreak.head? = some '\n' then
    if gap.otherBreaks.isEmpty then [' '] else gap.otherBreaks
  else gap.firstBreak ++ gap.otherBreaks

/-- Passes the blanks and breaks here. A tab may not stand before the column `indent` of a line. -/
def scan? : (fuel : Nat) → (indent : Nat) → Gap → Cursor → Option (Gap × Cursor)
  | 0, _, gap, c => some (gap, c)
  | fuel + 1, indent, gap, c =>
    match c.peek? with
    | .none => some (gap, c)
    | some char =>
      if isBlank char then
        if gap.broken then
          if char = '\t' && c.column < indent then .none else scan? fuel indent gap (c.skip 1)
        else scan? fuel indent { gap with spaces := gap.spaces ++ [char] } (c.skip 1)
      else if isBreak char then
        let (text, c) := c.takeBreak
        if gap.broken then scan? fuel indent { gap with otherBreaks := gap.otherBreaks ++ text } c
        else scan? fuel indent ⟨[], text, [], true⟩ c
      else some (gap, c)

end Gap

end BuildMatrix.Yaml
