import BuildMatrix.Decimal.Notation
import BuildMatrix.Json.Value

/-!
# JSON texts

A value is written either without any space, or with each item and member on a line of its own,
indented by two spaces for each level. Empty arrays and objects have no lines. Numbers that are not
finite are written as null.
-/

namespace BuildMatrix.Json

/-- A value below 16 as a hexadecimal digit. -/
def hexDigit (n : Nat) : Char := (Nat.toDigits 16 (n % 16)).headD '0'

/-- A character of a quoted text. Quotes, backslashes and control characters are escaped. -/
def escaped (c : Char) : List Char :=
  match c with
  | '"' => ['\\', '"']
  | '\\' => ['\\', '\\']
  | '\n' => ['\\', 'n']
  | '\r' => ['\\', 'r']
  | '\t' => ['\\', 't']
  | c =>
    if c.toNat = 8 then ['\\', 'b']
    else if c.toNat = 12 then ['\\', 'f']
    else if c.toNat < 0x20 then ['\\', 'u', '0', '0', hexDigit (c.toNat / 16), hexDigit c.toNat]
    else [c]

def quoted (s : String) : String := String.ofList ('"' :: s.toList.flatMap escaped ++ ['"'])

/-- The text of a floating-point number, null if it is not finite. -/
def floatText (x : Decimal.Binary64) : String :=
  if x.isFinite then Decimal.jsonStyle.write x else "null"

mutual

/-- A value without any space. -/
def compact : Json → String
  | null => "null"
  | bool b => if b then "true" else "false"
  | integer n => toString n
  | float x => floatText x
  | string s => quoted s
  | array items => "[" ++ compactItems items ++ "]"
  | object members => "\x7b" ++ compactMembers members ++ "\x7d"

def compactItems : List Json → String
  | [] => ""
  | [item] => compact item
  | item :: items => compact item ++ "," ++ compactItems items

def compactMembers : List (String × Json) → String
  | [] => ""
  | [(name, value)] => quoted name ++ ":" ++ compact value
  | (name, value) :: members =>
    quoted name ++ ":" ++ compact value ++ "," ++ compactMembers members

end

def newLine (level : Nat) : String := "\n" ++ String.ofList (List.replicate (2 * level) ' ')

mutual

/-- A value with one line for each item and member, the first line starting at `level`. -/
def pretty (level : Nat) : Json → String
  | null => "null"
  | bool b => if b then "true" else "false"
  | integer n => toString n
  | float x => floatText x
  | string s => quoted s
  | array [] => "[]"
  | array (item :: items) =>
    "[" ++ newLine (level + 1) ++ pretty (level + 1) item ++ prettyItems (level + 1) items
      ++ newLine level ++ "]"
  | object [] => "\x7b\x7d"
  | object ((name, value) :: members) =>
    "\x7b" ++ newLine (level + 1) ++ quoted name ++ ": " ++ pretty (level + 1) value
      ++ prettyMembers (level + 1) members ++ newLine level ++ "\x7d"

/-- The items after the first, each after a comma on a new line. -/
def prettyItems (level : Nat) : List Json → String
  | [] => ""
  | item :: items => "," ++ newLine level ++ pretty level item ++ prettyItems level items

/-- The members after the first, each after a comma on a new line. -/
def prettyMembers (level : Nat) : List (String × Json) → String
  | [] => ""
  | (name, value) :: members =>
    "," ++ newLine level ++ quoted name ++ ": " ++ pretty level value ++ prettyMembers level members

end

/-- The text of a value, with one line for each item and member. -/
def render (value : Json) : String := pretty 0 value

end BuildMatrix.Json
