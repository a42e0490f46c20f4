import BuildMatrix.Json.Source
import BuildMatrix.Yaml.Cursor

/-!
# Quoted and plain scalars

Quoted and plain scalars may go over several lines. The blanks around a line break are dropped and
the break is folded. Only between double quotes a backslash starts an escape.
-/

namespace BuildMatrix.Yaml.Lexeme

/-- The character that an escape of one letter stands for. -/
def simpleEscape? (letter : Char) : Option Char :=
  match letter with
  | '0' => some (Char.ofNat 0x00)
  | 'a' => some (Char.ofNat 0x07)
  | 'b' => some (Char.ofNat 0x08)
  | 't' | '\t' => some (Char.ofNat 0x09)
  | 'n' => some (Char.ofNat 0x0A)
  | 'v' => some (Char.ofNat 0x0B)
  | 'f' => some (Char.ofNat 0x0C)
  | 'r' => some (Char.ofNat 0x0D)
  | 'e' => some (Char.ofNat 0x1B)
  | ' ' => some ' '
  | '"' => some '"'
  | '/' => some '/'
  | '\\' => some '\\'
  | 'N' => some (Char.ofNat 0x85)
  | '_' => some (Char.ofNat 0xA0)
  | 'L' => some (Char.ofNat 0x2028)
  | 'P' => some (Char.ofNat 0x2029)
  | _ => none

def escapeDigits? (letter : Char) : Option Nat :=
  match letter with
  | 'x' => some 2
  | 'u' => some 4
  | 'U' => some 8
  | _ => none

def hexDigit? (c : Char) : Option Nat :=
  if c.toNat < 128 then Json.Source.hexValue? c.toNat.toUInt8 else none

/-- The character that an escape stands for, after the backslash. -/
def escape? (c : Cursor) : Option (Char × Cursor) := do
  let letter ← c.peek?
  match escapeDigits? letter with
  | none => some (← simpleEscape? letter, c.skip 1)
  | some count =>
    let c := c.skip 1
    let digits ← (c.rest.take count).mapM hexDigit?
    let code := digits.foldl (fun n d => n * 16 + d) 0
    if digits.length < count || (0xD800 ≤ code && code ≤ 0xDFFF) || code > 0x10FFFF then none
    else some (Char.ofNat code, c.skip count)

/-- The rest of a quoted scalar, after the text so far, which is reversed. -/
def quotedRest? (quote : Char) :
    (fuel : Nat) → (text : List Char) → Cursor → Option (List Char × Cursor)
  | 0, _, _ => none
  | fuel + 1, text, c => do
    let continueAfter (gap : Gap) (c : Cursor) : Option (List Char × Cursor) := do
      let (gap, c) ← Gap.scan? c.rest.length 0 gap c
      if c.atDocumentMarker then none
      else quotedRest? quote fuel (gap.text.reverse ++ text) c
    let char ← c.peek?
    if char = quote then
      if quote = '\'' && c.peekAt? 1 = some quote then
        quotedRest? quote fuel (quote :: text) (c.skip 2)
      else some (text.reverse, c.skip 1)
    else if isBlank char || isBreak char then continueAfter .none c
    else if char = '\\' && quote = '"' then
      if (c.peekAt? 1).any isBreak then continueAfter .afterEscapedBreak (c.skip 1).skipBreak
      else
        let (char, c) ← escape? (c.skip 1)
        quotedRest? quote fuel (char :: text) c
    else quotedRest? quote fuel (char :: text) (c.skip 1)

def quoted? (quote : Char) (c : Cursor) : Option (String × Cursor) := do
  let (text, c) ← quotedRest? quote (c.rest.length + 1) [] (c.skip 1)
  some (String.ofList text, c)

/-- A bracket, a brace or a comma. -/
def isFlowIndicator (c : Char) : Bool := ",[]\x7b\x7d".toList.contains c

/-- A plain scalar, and whether a line break follows it. -/
structure Plain where
  text : List Char
  broken : Bool
deriving DecidableEq, Repr

/--
The rest of a plain scalar. The arguments are the text so far, which is reversed, and the gap before
the next character, which counts only if a character follows.
-/
def plainRest? (inBrackets : Bool) (indent : Nat) :
    (fuel : Nat) → (text : List Char) → Gap → Cursor → Option (Plain × Cursor)
  | 0, text, gap, c => some (⟨text.reverse, gap.broken⟩, c)
  | fuel + 1, text, gap, c => do
    let ended := some (⟨text.reverse, gap.broken⟩, c)
    match c.peek? with
    | none => ended
    | some char =>
      if isBlank char || isBreak char then
        let (gap, c) ← Gap.scan? c.rest.length indent .none c
        let ended := some (⟨text.reverse, gap.broken⟩, c)
        if !inBrackets && c.column < indent then ended
        else if c.atDocumentMarker || c.sees '#' then ended
        else if c.blankOrEndAt 0 then ended
        else plainRest? inBrackets indent fuel text gap c
      else if inBrackets && char = ':'
          && (c.peekAt? 1).any fun next => isFlowIndicator next || next = '?' then none
      else if (char = ':' && c.blankOrEndAt 1) || (inBrackets && isFlowIndicator char) then ended
      else
        plainRest? inBrackets indent fuel (char :: (gap.text.reverse ++ text)) .none (c.skip 1)

def plain? (inBrackets : Bool) (indent : Nat) (c : Cursor) : Option (Plain × Cursor) :=
  plainRest? inBrackets indent (2 * c.rest.length + 1) [] .none c

end BuildMatrix.Yaml.Lexeme
