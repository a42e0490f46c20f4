import BuildMatrix.Text.Utf8

/-!
# JSON source

The source of a JSON document is its tree with each number and text as it is written. Whether the
document is well-formed is decided here. What a number or a text stands for is decided where it is
used, so a part that is never used may hold a number that is out of range or a text that is no
Unicode text.
-/

namespace BuildMatrix.Json

/-- A JSON document with its numbers and texts as they are written. -/
inductive Source where
  | null
  | bool (value : Bool)
  | number (digits : Bytes)
  | text (body : Bytes)
  | array (items : List Source)
  | object (members : List (Bytes × Source))
deriving Repr

namespace Source

/-- The four bytes that may stand between tokens. -/
def isSpace (b : UInt8) : Bool := b = 0x20 || b = 0x0A || b = 0x0D || b = 0x09

def skipSpace (s : Bytes) : Bytes := s.dropWhile isSpace

def isDigitByte (b : UInt8) : Bool := 0x30 ≤ b && b ≤ 0x39

def hexValue? (b : UInt8) : Option Nat :=
  if isDigitByte b then some (b.toNat - 0x30)
  else if 0x61 ≤ b && b ≤ 0x66 then some (b.toNat - 0x61 + 10)
  else if 0x41 ≤ b && b ≤ 0x46 then some (b.toNat - 0x41 + 10)
  else none

/-- The value of the four hexadecimal digits at the start, and the rest. -/
def hexUnit? : Bytes → Option (Nat × Bytes)
  | a :: b :: c :: d :: rest => do
    let a ← hexValue? a
    let b ← hexValue? b
    let c ← hexValue? c
    let d ← hexValue? d
    pure (((a * 16 + b) * 16 + c) * 16 + d, rest)
  | _ => none

/-- A byte that may follow a backslash, other than `u`. -/
def isSimpleEscape (b : UInt8) : Bool :=
  b = 0x22 || b = 0x5C || b = 0x2F || b = 0x62 || b = 0x66 || b = 0x6E || b = 0x72 || b = 0x74

/-- The body of a text after its opening quote, and what follows its closing quote. -/
def textBody? : Bytes → Option (Bytes × Bytes)
  | [] => none
  | 0x22 :: rest => some ([], rest)
  | 0x5C :: 0x75 :: a :: b :: c :: d :: rest =>
    if (hexUnit? [a, b, c, d]).isSome then
      (textBody? rest).map fun (body, rest) => (0x5C :: 0x75 :: a :: b :: c :: d :: body, rest)
    else none
  | 0x5C :: e :: rest =>
    if isSimpleEscape e then (textBody? rest).map fun (body, rest) => (0x5C :: e :: body, rest)
    else none
  | b :: rest =>
    if b < 0x20 || b = 0x5C then none
    else (textBody? rest).map fun (body, rest) => (b :: body, rest)

/-- At least one digit, and the rest. -/
def digits? (s : Bytes) : Option (Bytes × Bytes) :=
  match s.takeWhile isDigitByte with
  | [] => none
  | ds => some (ds, s.dropWhile isDigitByte)

/-- The digits of a whole number, which start with zero only if there is no other. -/
def whole? (s : Bytes) : Option (Bytes × Bytes) := do
  let (ds, rest) ← digits? s
  if ds.head? = some 0x30 && ds.length > 1 then none else some (ds, rest)

/-- A point and digits, or nothing. -/
def fraction? : Bytes → Option (Bytes × Bytes)
  | 0x2E :: s => (digits? s).map fun (ds, rest) => (0x2E :: ds, rest)
  | s => some ([], s)

/-- An exponent, or nothing. -/
def power? : Bytes → Option (Bytes × Bytes)
  | e :: s =>
    if e = 0x65 || e = 0x45 then
      match s with
      | sign :: s' =>
        if sign = 0x2B || sign = 0x2D then
          (digits? s').map fun (ds, rest) => (e :: sign :: ds, rest)
        else (digits? s).map fun (ds, rest) => (e :: ds, rest)
      | [] => none
    else some ([], e :: s)
  | [] => some ([], [])

def number? (s : Bytes) : Option (Bytes × Bytes) := do
  let (sign, s) := match s with
    | 0x2D :: s => ([(0x2D : UInt8)], s)
    | s => ([], s)
  let (whole, s) ← whole? s
  let (fraction, s) ← fraction? s
  let (power, s) ← power? s
  pure (sign ++ whole ++ fraction ++ power, s)

/-- The rest after a fixed word. -/
def word? (word s : Bytes) : Option Bytes :=
  if s.take word.length = word then some (s.drop word.length) else none

mutual

/--
The value at the start of a document, and the rest. Each call on a nested value or item takes from
the fuel; a document of `n` bytes needs no more than `2 n`.
-/
def value? : (fuel : Nat) → Bytes → Option (Source × Bytes)
  | 0, _ => none
  | fuel + 1, s =>
    match skipSpace s with
    | [] => none
    | 0x22 :: rest => (textBody? rest).map fun (body, rest) => (.text body, rest)
    | 0x5B :: rest =>
      match skipSpace rest with
      | 0x5D :: rest => some (.array [], rest)
      | rest => (items? fuel rest).map fun (items, rest) => (.array items, rest)
    | 0x7B :: rest =>
      match skipSpace rest with
      | 0x7D :: rest => some (.object [], rest)
      | rest => (members? fuel rest).map fun (members, rest) => (.object members, rest)
    | b :: rest =>
      if b = 0x6E then (word? [0x75, 0x6C, 0x6C] rest).map fun rest => (.null, rest)
      else if b = 0x74 then (word? [0x72, 0x75, 0x65] rest).map fun rest => (.bool true, rest)
      else if b = 0x66 then
        (word? [0x61, 0x6C, 0x73, 0x65] rest).map fun rest => (.bool false, rest)
      else (number? (b :: rest)).map fun (digits, rest) => (.number digits, rest)

/-- The items up to the closing bracket of an array that is not empty. -/
def items? : (fuel : Nat) → Bytes → Option (List Source × Bytes)
  | 0, _ => none
  | fuel + 1, s => do
    let (item, rest) ← value? fuel s
    match skipSpace rest with
    | 0x2C :: rest => (items? fuel rest).map fun (items, rest) => (item :: items, rest)
    | 0x5D :: rest => some ([item], rest)
    | _ => none

/-- The members up to the closing brace of an object that is not empty. -/
def members? : (fuel : Nat) → Bytes → Option (List (Bytes × Source) × Bytes)
  | 0, _ => none
  | fuel + 1, s =>
    match skipSpace s with
    | 0x22 :: rest => do
      let (name, rest) ← textBody? rest
      match skipSpace rest with
      | 0x3A :: rest =>
        let (value, rest) ← value? fuel rest
        match skipSpace rest with
        | 0x2C :: rest =>
          (members? fuel rest).map fun (members, rest) => ((name, value) :: members, rest)
        | 0x7D :: rest => some ([(name, value)], rest)
        | _ => none
      | _ => none
    | _ => none

end

def read? (s : Bytes) : Option Source := do
  let (source, rest) ← value? (2 * s.length + 2) s
  if (skipSpace rest).isEmpty then some source else none

def simpleEscape (b : UInt8) : UInt8 :=
  if b = 0x62 then 0x08 else if b = 0x66 then 0x0C else if b = 0x6E then 0x0A
  else if b = 0x72 then 0x0D else if b = 0x74 then 0x09 else b

/-- Replaces escapes by the bytes that they stand for; half of a surrogate pair stands for none. -/
def unescape? : (fuel : Nat) → Bytes → Option Bytes
  | 0, _ => none
  | _ + 1, [] => some []
  | fuel + 1, 0x5C :: 0x75 :: s => do
    let (unit, s) ← hexUnit? s
    if 0xDC00 ≤ unit && unit ≤ 0xDFFF then none
    else if 0xD800 ≤ unit && unit ≤ 0xDBFF then
      match s with
      | 0x5C :: 0x75 :: s =>
        let (low, s) ← hexUnit? s
        if 0xDC00 ≤ low && low ≤ 0xDFFF then
          let code := 0x10000 + (unit - 0xD800) * 0x400 + (low - 0xDC00)
          (unescape? fuel s).map (Utf8.encode (String.singleton (Char.ofNat code)) ++ ·)
        else none
      | _ => none
    else (unescape? fuel s).map (Utf8.encode (String.singleton (Char.ofNat unit)) ++ ·)
  | fuel + 1, 0x5C :: e :: s => (unescape? fuel s).map (simpleEscape e :: ·)
  | fuel + 1, b :: s => (unescape? fuel s).map (b :: ·)

/-- The text that a body stands for, if it is Unicode text. -/
def decodeText? (body : Bytes) : Option String :=
  (unescape? (body.length + 1) body).bind Utf8.decode?

end Source

end BuildMatrix.Json
