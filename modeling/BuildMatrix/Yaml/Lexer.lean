import BuildMatrix.Yaml.Lexeme.Block
import BuildMatrix.Yaml.Lexeme.Flow
import BuildMatrix.Yaml.Lexeme.Name

/-!
# Tokens of a YAML text

Tokens are found from left to right. A key that no indicator announces is known only when its colon
comes: the tokens that open the key and perhaps its mapping are then put before it. The column of
each line opens and closes block collections.
-/

namespace BuildMatrix.Yaml

/-- A place where a key may have started without an indicator. -/
structure KeyStart where
  /-- Whether nothing but a key may stand there. -/
  required : Bool
  tokenCount : Nat
  line : Nat
  index : Nat
  column : Nat
deriving DecidableEq, Repr

/-- The number of characters within which the colon of a key has to come. -/
def longestKey : Nat := 1024

/-- The state between two tokens. -/
structure Lexer where
  cursor : Cursor
  /-- The tokens so far, the last first. -/
  tokens : List Token
  tokenCount : Nat
  /-- The column of the innermost block collection, -1 outside of all. -/
  indent : Int
  /-- The columns of the collections around it. -/
  outerIndents : List Int
  /-- The number of open brackets and braces. -/
  depth : Nat
  /-- Whether a key may start here without an indicator. -/
  keyAllowed : Bool
  /-- The possible key start of each level of brackets, the innermost first. -/
  keyStarts : List (Option KeyStart)
deriving Repr

namespace Lexer

/-- The state before the first token. -/
def start (text : List Char) : Lexer := ⟨.start text, [], 0, -1, [], 0, true, [none]⟩

def inBrackets (s : Lexer) : Bool := s.depth > 0

def push (s : Lexer) (token : Token) : Lexer :=
  { s with tokens := token :: s.tokens, tokenCount := s.tokenCount + 1 }

/-- Adds a token after the first `position` tokens. -/
def insert (s : Lexer) (position : Nat) (token : Token) : Lexer :=
  let later := s.tokenCount - position
  { s with
    tokens := s.tokens.take later ++ token :: s.tokens.drop later
    tokenCount := s.tokenCount + 1 }

def keyStart? (s : Lexer) : Option KeyStart := s.keyStarts.headD none

def setKeyStart (s : Lexer) (start : Option KeyStart) : Lexer :=
  { s with keyStarts := start :: s.keyStarts.drop 1 }

/-- Gives up the possible key of the innermost level; a required key must not be given up. -/
def dropKeyStart? (s : Lexer) : Option Lexer :=
  if s.keyStart?.any (·.required) then none else some (s.setKeyStart none)

def noteKeyStart? (s : Lexer) : Option Lexer :=
  if s.keyAllowed then do
    let s ← s.dropKeyStart?
    let c := s.cursor
    let required := !s.inBrackets && s.indent = c.column
    some (s.setKeyStart (some ⟨required, s.tokenCount, c.line, c.index, c.column⟩))
  else some s

/-- Gives up key starts on earlier lines and those that are too far away. -/
def dropStaleKeyStarts? (s : Lexer) : Option Lexer := do
  let c := s.cursor
  let keyStarts ← s.keyStarts.mapM fun start? =>
    match start? with
    | none => some none
    | some start =>
      if start.line < c.line || start.index + longestKey < c.index then
        if start.required then none else some none
      else some (some start)
  some { s with keyStarts }

/-- Opens a block collection at a column to the right of the current one. -/
def indentTo (s : Lexer) (column position : Nat) (token : Token) : Lexer :=
  if s.inBrackets || (column : Int) ≤ s.indent then s
  else
    { s.insert position token with indent := column, outerIndents := s.indent :: s.outerIndents }

/-- Closes the block collections to the right of a column. -/
def closeTo (column : Int) : (outer : List Int) → Lexer → Lexer
  | outer, s =>
    if s.inBrackets || s.indent ≤ column then s
    else match outer with
      | [] => s
      | indent :: outer =>
        closeTo column outer { s.push .blockEnd with indent, outerIndents := outer }

/-- Closes the block collections to the right of a column. -/
def unindentTo (s : Lexer) (column : Int) : Lexer := closeTo column s.outerIndents s

/-- Passes blanks, comments and line breaks. -/
def skipToToken : (fuel : Nat) → Lexer → Lexer
  | 0, s => s
  | fuel + 1, s =>
    let c := s.cursor
    let c := if c.column = 0 && c.peek?.any isByteOrderMark then c.skip 1 else c
    let c := c.skipWhile fun char => char = ' ' || ((s.inBrackets || !s.keyAllowed) && char = '\t')
    let c := if c.sees '#' then c.skipWhile fun char => !isBreak char else c
    if c.peek?.any isBreak then
      skipToToken fuel { s with cursor := c.skipBreak, keyAllowed := s.keyAllowed || !s.inBrackets }
    else { s with cursor := c }

/-- Adds the token of an indicator of some characters, after which a key may or may not start. -/
def indicator (s : Lexer) (length : Nat) (token : Token) (keyAllowed : Bool) : Lexer :=
  { s.push token with cursor := s.cursor.skip length, keyAllowed }

/-- Adds a token that may be or start a key, and whose text ends at a cursor. -/
def keyToken? (s : Lexer) (read : Option (Token × Cursor)) : Option Lexer := do
  let s ← s.noteKeyStart?
  let (token, cursor) ← read
  some { s.push token with cursor, keyAllowed := false }

/-- A bracket or brace that opens a collection. -/
def openFlow? (s : Lexer) (token : Token) : Option Lexer := do
  let s ← s.noteKeyStart?
  some ({ s with keyStarts := none :: s.keyStarts, depth := s.depth + 1 }.indicator 1 token true)

/-- A bracket or brace that closes a collection. -/
def closeFlow? (s : Lexer) (token : Token) : Option Lexer := do
  let s ← s.dropKeyStart?
  let s :=
    if s.inBrackets then { s with keyStarts := s.keyStarts.drop 1, depth := s.depth - 1 } else s
  some (s.indicator 1 token false)

/-- A comma between items. -/
def flowEntry? (s : Lexer) : Option Lexer := do
  some ((← s.dropKeyStart?).indicator 1 .flowEntry true)

/-- A dash before an item. -/
def blockEntry? (s : Lexer) : Option Lexer := do
  if !s.inBrackets && !s.keyAllowed then none
  else
    let s := s.indentTo s.cursor.column s.tokenCount .blockSequenceStart
    some ((← s.dropKeyStart?).indicator 1 .blockEntry true)

/-- A question mark before a key. -/
def explicitKey? (s : Lexer) : Option Lexer := do
  if !s.inBrackets && !s.keyAllowed then none
  else
    let s := s.indentTo s.cursor.column s.tokenCount .blockMappingStart
    some ((← s.dropKeyStart?).indicator 1 .key (!s.inBrackets))

def value? (s : Lexer) : Option Lexer :=
  match s.keyStart? with
  | some start =>
    let s := (s.insert start.tokenCount .key).indentTo start.column start.tokenCount
      .blockMappingStart
    some ((s.setKeyStart none).indicator 1 .value false)
  | none =>
    if !s.inBrackets && !s.keyAllowed then none
    else
      let s := s.indentTo s.cursor.column s.tokenCount .blockMappingStart
      some (s.indicator 1 .value (!s.inBrackets))

def documentMarker? (s : Lexer) (token : Token) : Option Lexer := do
  some ((← (s.unindentTo (-1)).dropKeyStart?).indicator 3 token false)

def directive? (s : Lexer) : Option Lexer := do
  let s ← (s.unindentTo (-1)).dropKeyStart?
  let (token, cursor) ← Lexeme.directive? (s.cursor.skip 1)
  some { s.push token with cursor, keyAllowed := false }

def block? (s : Lexer) (folded : Bool) : Option Lexer := do
  let s ← s.dropKeyStart?
  let (text, cursor) ← Lexeme.block? folded s.indent (s.cursor.skip 1)
  some { s.push (.scalar text (if folded then .folded else .literal)) with
    cursor, keyAllowed := true }

def quoted? (s : Lexer) (quote : Char) : Option Lexer :=
  s.keyToken? ((Lexeme.quoted? quote s.cursor).map fun (text, c) => (.scalar text .quoted, c))

def plain? (s : Lexer) : Option Lexer := do
  let s ← s.noteKeyStart?
  let (plain, cursor) ← Lexeme.plain? s.inBrackets (s.indent + 1).toNat s.cursor
  some { s.push (.scalar (String.ofList plain.text) .plain) with
    cursor, keyAllowed := plain.broken }

def plainStarts (s : Lexer) (char : Char) : Bool :=
  let c := s.cursor
  !(isBlank char || "-?:,[]\x7b\x7d#&*!|>'\"%@`".toList.contains char)
    || (char = '-' && !(c.peekAt? 1).any isBlank)
    || (!s.inBrackets && (char = '?' || char = ':') && !c.blankOrEndAt 1)

def token? (s : Lexer) (char : Char) : Option Lexer :=
  let c := s.cursor
  let separated := c.blankOrEndAt 1
  if c.column = 0 && char = '%' then s.directive?
  else if c.seesDocumentMarker '-' then s.documentMarker? .documentStart
  else if c.seesDocumentMarker '.' then s.documentMarker? .documentEnd
  else match char with
    | '[' => s.openFlow? .flowSequenceStart
    | '\x7b' => s.openFlow? .flowMappingStart
    | ']' => s.closeFlow? .flowSequenceEnd
    | '\x7d' => s.closeFlow? .flowMappingEnd
    | ',' => s.flowEntry?
    | '*' => s.keyToken? ((Lexeme.anchorName? (c.skip 1)).map fun (name, c) => (.alias name, c))
    | '&' => s.keyToken? ((Lexeme.anchorName? (c.skip 1)).map fun (name, c) => (.anchor name, c))
    | '!' => s.keyToken? (Lexeme.tag? s.inBrackets c)
    | '\'' | '"' => s.quoted? char
    | _ =>
      if char = '-' && separated then s.blockEntry?
      else if char = '?' && (s.inBrackets || separated) then s.explicitKey?
      else if char = ':' && (s.inBrackets || separated) then s.value?
      else if (char = '|' || char = '>') && !s.inBrackets then s.block? (char = '>')
      else if s.plainStarts char then s.plain?
      else none

/-- The state after the last token. -/
def finish? (s : Lexer) : Option Lexer := (s.unindentTo (-1)).dropKeyStart?

/-- The state after all tokens; each step passes at least one character. -/
def run? : (fuel : Nat) → Lexer → Option Lexer
  | 0, _ => none
  | fuel + 1, s => do
    let s ← (skipToToken (s.cursor.rest.length + 1) s).dropStaleKeyStarts?
    let s := s.unindentTo s.cursor.column
    match s.cursor.peek? with
    | none => s.finish?
    | some char => run? fuel (← s.token? char)

end Lexer

def tokens? (text : List Char) : Option (List Token) :=
  if text.all isPrintable then
    let text := if text.head?.any isByteOrderMark then text.drop 1 else text
    (Lexer.run? (text.length + 1) (.start text)).map fun s => s.tokens.reverse
  else none

end BuildMatrix.Yaml
