/-!
# Execution identifiers

An execution is identified by 16 bytes, written as 32 lowercase hexadecimal digits in groups of 8,
4, 4, 4 and 12. Reading also takes uppercase digits, the digits without dashes, the grouped form in
braces and the grouped form after `urn:uuid:`.
-/

namespace BuildMatrix

/-- A decimal digit or one of the letters `a` to `f`. -/
def isLowerHexDigit (c : Char) : Bool := c.isDigit || ('a' ≤ c && c ≤ 'f')

/-- A universally unique identifier as its 32 lowercase hexadecimal digits. -/
structure Ident where
  digits : List Char
  isWellFormed : (digits.length = 32 && digits.all isLowerHexDigit) = true
deriving DecidableEq, Repr

namespace Ident

def zero : Ident := ⟨List.replicate 32 '0', by decide⟩

/-- The digits in their five groups. -/
def render (id : Ident) : String :=
  let d := id.digits
  String.ofList (d.take 8 ++ '-' :: (d.drop 8).take 4 ++ '-' :: (d.drop 12).take 4
    ++ '-' :: (d.drop 16).take 4 ++ '-' :: d.drop 20)

/-- The first group, under which an execution is shown. -/
def short (id : Ident) : String := String.ofList (id.digits.take 8)

def ofDigits? (s : List Char) : Option Ident :=
  let digits := s.map Char.toLower
  if h : (digits.length = 32 && digits.all isLowerHexDigit) = true then some ⟨digits, h⟩ else none

def ofGroups? (s : List Char) : Option Ident :=
  if s.length = 36 && s[8]? = some '-' && s[13]? = some '-' && s[18]? = some '-'
      && s[23]? = some '-' then
    ofDigits? (s.take 8 ++ (s.drop 9).take 4 ++ (s.drop 14).take 4 ++ (s.drop 19).take 4
      ++ s.drop 24)
  else none

def read? (text : String) : Option Ident :=
  let s := text.toList
  if text.utf8ByteSize = 32 then ofDigits? s
  else if text.utf8ByteSize = 36 then ofGroups? s
  else if s.length = 38 && s.head? = some '\x7b' && s.getLast? = some '\x7d' then
    ofGroups? ((s.drop 1).take 36)
  else if s.length = 45 && s.take 9 = "urn:uuid:".toList then ofGroups? (s.drop 9)
  else none

end Ident

end BuildMatrix
