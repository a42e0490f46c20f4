import BuildMatrix.Text.Digit
import BuildMatrix.Text.Split

/-!
# Words

A word is what a script writes where an argument stands: plain and quoted characters, parameters,
arithmetic and the output of other scripts. The script of a substitution is kept as it is written
and read when it is needed.
-/

namespace BuildMatrix.Shell

/-- A part of a word. -/
inductive Piece where
  | chars (text : List Char) (quoted : Bool)
  /--
  The value of a parameter; `modifier` is an operator with a word, such as `:-` and a default.
  -/
  | parameter (name : String) (modifier : Option (String × List Piece)) (quoted : Bool)
  /-- The number of characters of the value of a parameter. -/
  | size (name : String) (quoted : Bool)
  | arithmetic (expression : List Piece) (quoted : Bool)
  | output (script : List Char) (quoted : Bool)
deriving Repr

abbrev Word := List Piece

/-- The characters of a word that has nothing but plain ones. -/
def Word.plain? : Word → Option (List Char)
  | [] => some []
  | .chars text false :: rest => (plain? rest).map (text ++ ·)
  | _ => none

/-- How far a word goes, and what is special in it. -/
inductive Extent where
  /-- Up to a blank or an operator. -/
  | bare
  | doubleQuoted
  /-- To the end, with quotes. -/
  | whole
  /-- To the end, between double quotes. -/
  | wholeQuoted
  /-- To the end, between double quotes and in braces, where further ones have no effect. -/
  | inBraces
deriving DecidableEq, Repr

namespace Extent

/-- Whether only dollar signs, backquotes and backslashes are special. -/
def isQuoted : Extent → Bool
  | doubleQuoted | wholeQuoted | inBraces => true
  | _ => false

end Extent

def endsWord (c : Char) : Bool := [' ', '\t', '\n', ';', '&', '|', '<', '>', '(', ')'].contains c

def startsName (c : Char) : Bool := c.isAlpha || c == '_'

def continuesName (c : Char) : Bool := startsName c || c.isDigit

def isName : List Char → Bool
  | [] => false
  | c :: s => startsName c && s.all continuesName

/-- Whether a character is the name of a special parameter. -/
def isSpecial (c : Char) : Bool := ['@', '*', '#', '?', '$', '!', '-'].contains c

/--
The text up to the character that closes the opening one before it, and the text after it. Quoted
characters do not count.
-/
def enclosed? (opening closing : Char) :
    (depth : Nat) → (quote : Option Char) → List Char → Option (List Char × List Char)
  | _, _, [] => none
  | depth, quote, '\\' :: c :: s =>
    if quote = some '\'' then
      let inner := if c = '\'' then none else quote
      (enclosed? opening closing depth inner s).map fun (a, b) => ('\\' :: c :: a, b)
    else (enclosed? opening closing depth quote s).map fun (a, b) => ('\\' :: c :: a, b)
  | depth, some q, c :: s =>
    (enclosed? opening closing depth (if c = q then none else some q) s).map fun (a, b) =>
      (c :: a, b)
  | depth, none, c :: s =>
    let go (depth : Nat) (quote : Option Char) :=
      (enclosed? opening closing depth quote s).map fun (a, b) => (c :: a, b)
    if c = '\'' || c = '"' then go depth (some c)
    else if c = closing then
      match depth with
      | 0 => some ([], s)
      | depth + 1 => go depth none
    else if c = opening then go (depth + 1) none
    else go depth none

/--
The text up to a backquote, without the backslashes that protect characters from it. Between double
quotes they also protect double quotes.
-/
def backquoted? (quoted : Bool) : List Char → Option (List Char × List Char)
  | [] => none
  | '`' :: s => some ([], s)
  | '\\' :: c :: s =>
    (backquoted? quoted s).map fun (a, b) =>
      (if c = '`' || c = '$' || c = '\\' || (quoted && c = '"') then c :: a
        else '\\' :: c :: a, b)
  | c :: s => (backquoted? quoted s).map fun (a, b) => (c :: a, b)

/-- The operators that may stand after the name of a parameter in braces, longer ones first. -/
def modifiers : List String := [":-", ":=", ":?", ":+", "-", "=", "?", "+", "##", "%%", "#", "%"]

/-- The operator at the start of a text, and what follows it. -/
def modifier? (s : List Char) : Option (String × List Char) :=
  modifiers.findSome? fun m => (Text.after? m.toList s).map (m, ·)

/-- The name of a parameter at the start of a text, and what follows it. -/
def parameterName? : List Char → Option (String × List Char)
  | [] => none
  | c :: s =>
    if startsName c then
      some (String.ofList (c :: s.takeWhile continuesName), s.dropWhile continuesName)
    else if c.isDigit then
      some (String.ofList (c :: s.takeWhile Char.isDigit), s.dropWhile Char.isDigit)
    else if isSpecial c then some (String.singleton c, s)
    else none

/-- Adds a character to the pieces that follow it. -/
def consChar (c : Char) (quoted : Bool) : Word → Word
  | .chars text q :: rest =>
    if q = quoted then .chars (c :: text) q :: rest else .chars [c] quoted :: .chars text q :: rest
  | rest => .chars [c] quoted :: rest

/-- Whether all arguments are named, each of which is a word of its own; there may be none. -/
def namesAll (word : Word) : Bool :=
  word.any fun
    | .parameter "@" none _ => true
    | _ => false

mutual

/-- Reads the parts of a word from a text that has at most `fuel` characters. -/
def readPieces (fuel : Nat) (extent : Extent) (s : List Char) : Option (Word × List Char) :=
  match fuel with
  | 0 => if extent = .doubleQuoted then none else some ([], s)
  | fuel + 1 =>
    let quoted := extent.isQuoted
    let before (piece : Piece) (r : Option (Word × List Char)) :=
      r.map fun (pieces, rest) => (piece :: pieces, rest)
    match s with
    | [] => if extent = .doubleQuoted then none else some ([], [])
    | '$' :: s => do
      let (piece, rest) ← readDollar fuel quoted s
      before piece (readPieces fuel extent rest)
    | '`' :: s => do
      let (script, rest) ← backquoted? quoted s
      before (.output script quoted) (readPieces fuel extent rest)
    | '\\' :: '\n' :: s => readPieces fuel extent s
    | '\\' :: c :: s =>
      if quoted then
        if ['$', '`', '"', '\\'].contains c then
          (readPieces fuel extent s).map fun (pieces, rest) => (consChar c true pieces, rest)
        else
          (readPieces fuel extent s).map fun (pieces, rest) =>
            (consChar '\\' true (consChar c true pieces), rest)
      else (readPieces fuel extent s).map fun (pieces, rest) => (consChar c true pieces, rest)
    | '"' :: s =>
      if extent = .doubleQuoted then some ([], s)
      else if extent = .inBraces then readPieces fuel extent s
      else if quoted then
        (readPieces fuel extent s).map fun (pieces, rest) => (consChar '"' true pieces, rest)
      else do
        let (inner, rest) ← readPieces fuel .doubleQuoted s
        let (pieces, rest) ← readPieces fuel extent rest
        some (if namesAll inner then inner ++ pieces else .chars [] true :: inner ++ pieces, rest)
    | '\'' :: s =>
      if quoted then
        (readPieces fuel extent s).map fun (pieces, rest) => (consChar '\'' true pieces, rest)
      else do
        let (text, rest) ← Text.cut? ['\''] s
        before (.chars text true) (readPieces fuel extent rest)
    | c :: s =>
      if extent = .bare && endsWord c then some ([], c :: s)
      else (readPieces fuel extent s).map fun (pieces, rest) => (consChar c quoted pieces, rest)

def readDollar (fuel : Nat) (quoted : Bool) (s : List Char) : Option (Piece × List Char) :=
  match fuel with
  | 0 => some (.chars ['$'] quoted, s)
  | fuel + 1 =>
    match s with
    | '(' :: s => do
      let (text, rest) ← enclosed? '(' ')' 0 none s
      match text with
      | '(' :: inner =>
        if inner.getLast? = some ')' then
          let (expression, _) ← readPieces fuel .wholeQuoted inner.dropLast
          some (.arithmetic expression quoted, rest)
        else some (.output text quoted, rest)
      | _ => some (.output text quoted, rest)
    | '\x7b' :: s => do
      let (text, rest) ← enclosed? '\x7b' '\x7d' 0 none s
      match text with
      | '#' :: c :: name =>
        let (name, after) ← parameterName? (c :: name)
        if after.isEmpty then some (.size name quoted, rest) else none
      | _ =>
        let (name, after) ← parameterName? text
        if after.isEmpty then some (.parameter name none quoted, rest)
        else
          let (operator, word) ← modifier? after
          let isPattern := operator.toList.any fun c => c == '#' || c == '%'
          let (word, _) ← readPieces fuel (if quoted && !isPattern then .inBraces else .whole) word
          some (.parameter name (some (operator, word)) quoted, rest)
    | c :: s =>
      if c.isDigit then some (.parameter (String.singleton c) none quoted, s)
      else match parameterName? (c :: s) with
        | some (name, rest) => some (.parameter name none quoted, rest)
        | none => some (.chars ['$'] quoted, c :: s)
    | [] => some (.chars ['$'] quoted, [])

end

end BuildMatrix.Shell
