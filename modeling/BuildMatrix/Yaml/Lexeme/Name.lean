import BuildMatrix.Json.Source
import BuildMatrix.Yaml.Cursor
import BuildMatrix.Yaml.Token

/-!
# Anchors, tags and directives

Names of anchors are made of letters, digits, underscores and dashes. A tag is a handle and a
suffix, or a whole tag between angle brackets; octets may be written in hexadecimal after a percent
sign. A directive is a line before a document.
-/

namespace BuildMatrix.Yaml.Lexeme

/-- The name of an anchor or alias after its indicator. -/
def anchorName? (c : Cursor) : Option (String × Cursor) :=
  let (name, c) := c.span isNameChar
  let ended := c.blankOrEndAt 0 || c.peek?.any fun char => "?:,]\x7d%@`".toList.contains char
  if name.isEmpty || !ended then none else some (String.ofList name, c)

/-- A character of a tag, apart from the percent sign. -/
def isTagChar (verbatim : Bool) (char : Char) : Bool :=
  isNameChar char || ";/?:@&=+$.!~*'()".toList.contains char
    || (verbatim && (char = ',' || char = '[' || char = ']'))

/-- The octet after a percent sign. -/
def octet? : List Char → Option UInt8
  | '%' :: a :: b :: _ =>
    if a.toNat < 128 && b.toNat < 128 then do
      let high ← Json.Source.hexValue? a.toNat.toUInt8
      let low ← Json.Source.hexValue? b.toNat.toUInt8
      pure (16 * high + low).toUInt8
    else none
  | _ => none

/-- The number of octets of a character that starts with the given one. -/
def octetCount? (octet : UInt8) : Option Nat :=
  if octet &&& 0x80 = 0 then some 1
  else if octet &&& 0xE0 = 0xC0 then some 2
  else if octet &&& 0xF0 = 0xE0 then some 3
  else if octet &&& 0xF8 = 0xF0 then some 4
  else none

def furtherOctets? : (count : Nat) → Cursor → Option (Bytes × Cursor)
  | 0, c => some ([], c)
  | count + 1, c => do
    let octet ← octet? c.rest
    if octet &&& 0xC0 = 0x80 then
      let (octets, c) ← furtherOctets? count (c.skip 3)
      pure (octet :: octets, c)
    else none

def escapedOctets? (c : Cursor) : Option (Bytes × Cursor) := do
  let octet ← octet? c.rest
  let (octets, c) ← furtherOctets? ((← octetCount? octet) - 1) (c.skip 3)
  pure (octet :: octets, c)

/-- The bytes of a tag or of a part of it. -/
def tagBytes? (verbatim : Bool) : (fuel : Nat) → Cursor → Option (Bytes × Cursor)
  | 0, c => some ([], c)
  | fuel + 1, c =>
    match c.peek? with
    | none => some ([], c)
    | some char =>
      if char = '%' then do
        let (octets, c) ← escapedOctets? c
        let (bytes, c) ← tagBytes? verbatim fuel c
        pure (octets ++ bytes, c)
      else if isTagChar verbatim char then do
        let (bytes, c) ← tagBytes? verbatim fuel (c.skip 1)
        pure (Utf8.encode (String.singleton char) ++ bytes, c)
      else some ([], c)

/-- The bytes of a tag that must not be empty. -/
def someTagBytes? (verbatim : Bool) (c : Cursor) : Option (Bytes × Cursor) := do
  let (bytes, c') ← tagBytes? verbatim c.rest.length c
  if c'.index = c.index then none else some (bytes, c')

/-- What a tag handle starts with: an exclamation mark, a name and perhaps a second mark. -/
def handle? (c : Cursor) : Option (List Char × Cursor) :=
  if c.sees '!' then
    let (name, c) := (c.skip 1).span isNameChar
    if c.sees '!' then some ('!' :: name ++ ['!'], c.skip 1) else some ('!' :: name, c)
  else none

/-- The part of bytes before a zero byte, which ends a tag. -/
def beforeZero (bytes : Bytes) : Bytes := bytes.takeWhile (· != 0)

/-- A tag, before what ends it. -/
def tagName? (c : Cursor) : Option (TagName × Cursor) :=
  if c.peekAt? 1 = some '<' then do
    let (bytes, c) ← someTagBytes? true (c.skip 2)
    if c.sees '>' then some (⟨"", beforeZero bytes⟩, c.skip 1) else none
  else do
    let (handle, c) ← handle? c
    if handle.length > 1 && handle.getLast? = some '!' then
      let (bytes, c) ← someTagBytes? false c
      some (⟨String.ofList handle, beforeZero bytes⟩, c)
    else
      let (bytes, c) ← tagBytes? false c.rest.length c
      let suffix := beforeZero (Utf8.encode (String.ofList (handle.drop 1)) ++ bytes)
      if suffix.isEmpty then some (⟨"", Utf8.encode "!"⟩, c) else some (⟨"!", suffix⟩, c)

/-- A tag. Inside of brackets a comma may follow it directly. -/
def tag? (inBrackets : Bool) (c : Cursor) : Option (Token × Cursor) := do
  let (name, c) ← tagName? c
  if c.blankOrEndAt 0 || (inBrackets && c.sees ',') then some (.tag name, c) else none

def versionNumber? (c : Cursor) : Option (Nat × Cursor) :=
  let (digits, c) := c.span Char.isDigit
  if digits.isEmpty || digits.length > 9 then none
  else some (digits.foldl (fun n d => n * 10 + (d.toNat - 48)) 0, c)

def version? (c : Cursor) : Option (Token × Cursor) := do
  let (major, c) ← versionNumber? (c.skipWhile isBlank)
  if c.sees '.' then
    let (minor, c) ← versionNumber? (c.skip 1)
    some (.version major minor, c)
  else none

def tagHandle? (c : Cursor) : Option (Token × Cursor) := do
  let (handle, c) ← handle? (c.skipWhile isBlank)
  if handle.getLast? = some '!' && c.peek?.any isBlank then
    let (meaning, c) ← someTagBytes? true (c.skipWhile isBlank)
    if c.blankOrEndAt 0 then
      some (.tagHandle (String.ofList handle) (beforeZero meaning), c)
    else none
  else none

/-- A directive after its percent sign, with the rest of its line. -/
def directive? (c : Cursor) : Option (Token × Cursor) := do
  let (name, c) := c.span isNameChar
  if !c.blankOrEndAt 0 then none
  else
    let (token, c) ← match String.ofList name with
      | "YAML" => version? c
      | "TAG" => tagHandle? c
      | _ => none
    some (token, ← c.endLine?)

end BuildMatrix.Yaml.Lexeme
