import BuildMatrix.Json.Source
import BuildMatrix.Json.Value

/-!
# Reading JSON values

A document stands for a value if each of its texts is Unicode text. A number without point and
exponent is an integer, any other the nearest floating-point number.
-/

namespace BuildMatrix.Json

def digitsValue (digits : Bytes) : Nat := digits.foldl (fun n d => n * 10 + (d.toNat - 0x30)) 0

/-- The value of a decimal integer with an optional sign. -/
def signedValue : Bytes → Int
  | 0x2D :: ds => -(digitsValue ds : Int)
  | 0x2B :: ds => digitsValue ds
  | ds => digitsValue ds

def numberValue (text : Bytes) : Json :=
  let isPoint (b : UInt8) : Bool := b = 0x2E
  let isMark (b : UInt8) : Bool := b = 0x65 || b = 0x45
  if !(text.any fun b => isPoint b || isMark b) then .integer (signedValue text)
  else
    let negative := text.head? = some 0x2D
    let unsigned := if negative then text.drop 1 else text
    let mantissa := unsigned.takeWhile fun b => !isMark b
    let power := signedValue ((unsigned.dropWhile fun b => !isMark b).drop 1)
    let fraction := (mantissa.dropWhile fun b => !isPoint b).drop 1
    let digits := (mantissa.takeWhile fun b => !isPoint b) ++ fraction
    .float (Decimal.Binary64.ofDecimal negative (digitsValue digits) (power - fraction.length))

mutual

/-- The value that a document stands for. -/
def ofSource? : Source → Option Json
  | .null => some .null
  | .bool b => some (.bool b)
  | .number digits => some (numberValue digits)
  | .text body => (Source.decodeText? body).map .string
  | .array items => (ofItems? items).map .array
  | .object members => (ofMembers? members).map .object

def ofItems? : List Source → Option (List Json)
  | [] => some []
  | item :: items => do pure ((← ofSource? item) :: (← ofItems? items))

/-- The names and values of members. Of members with one name the last counts. -/
def ofMembers? : List (Bytes × Source) → Option (List (String × Json))
  | [] => some []
  | (name, value) :: members => do
    let name ← Source.decodeText? name
    let value ← ofSource? value
    let rest ← ofMembers? members
    pure (if rest.any fun m => m.1 == name then rest else (name, value) :: rest)

end

def read? (s : Bytes) : Option Json := (Source.read? s).bind ofSource?

end BuildMatrix.Json
