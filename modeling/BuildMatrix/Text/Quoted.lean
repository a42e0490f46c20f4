import BuildMatrix.Text.Extending
import BuildMatrix.Text.Invisible

/-!
# Quoted texts

A text is quoted so that each of its characters can be told from the quotation: quotes and
backslashes have a backslash before them, and characters that are invisible or would extend the
character before them are written by code point.
-/

namespace BuildMatrix.Text

/-- A character by its code point, its hexadecimal digits in braces after `\u`. -/
def codePoint (c : Char) : List Char :=
  '\\' :: 'u' :: '\x7b' :: Nat.toDigits 16 c.toNat ++ ['\x7d']

def quotedChar (c : Char) : List Char :=
  match c with
  | '"' => ['\\', '"']
  | '\\' => ['\\', '\\']
  | '\t' => ['\\', 't']
  | '\r' => ['\\', 'r']
  | '\n' => ['\\', 'n']
  | c =>
    if c.toNat = 0 then ['\\', '0']
    else if isExtending c || isInvisible c then codePoint c
    else [c]

def quoted (s : String) : String :=
  String.ofList ('"' :: s.toList.flatMap quotedChar ++ ['"'])

end BuildMatrix.Text
