import BuildMatrix.Decimal.Binary64
import BuildMatrix.Text.Split

/-!
# Plain scalars

A plain scalar may stand for null, a truth value or a number. Integers may be written in base 16, 8
or 2. Digits after a leading zero are no number.
-/

namespace BuildMatrix.Yaml.Scalar

def isNull (s : String) : Bool := s = "null" || s = "Null" || s = "NULL" || s = "~"

/-- The truth value of a text. -/
def bool? (s : String) : Option Bool :=
  if s = "true" || s = "True" || s = "TRUE" then some true
  else if s = "false" || s = "False" || s = "FALSE" then some false
  else none

/-- The value of a digit in bases up to 16. -/
def digitValue? (c : Char) : Option Nat :=
  if c.isDigit then some (c.toNat - 48)
  else if 'a' ≤ c && c ≤ 'f' then some (c.toNat - 87)
  else if 'A' ≤ c && c ≤ 'F' then some (c.toNat - 55)
  else none

/-- The value of at least one digit. -/
def natural? (base : Nat) (s : List Char) : Option Nat :=
  if s.isEmpty then none
  else s.foldlM (fun n c => do
    let d ← digitValue? c
    if d < base then some (n * base + d) else none) 0

/-- Whether a text is a zero with further digits, after an optional sign. -/
def isPaddedDigits (s : List Char) : Bool :=
  let s := match s with
    | '+' :: s | '-' :: s => s
    | s => s
  s.length > 1 && s.head? = some '0' && s.all Char.isDigit

def bases : List (List Char × Nat) :=
  [("0x".toList, 16), ("0o".toList, 8), ("0b".toList, 2)]

/-- A number after the announcement of its base. -/
def announced? (s : List Char) : Option Nat :=
  bases.findSome? fun (lead, base) => (Text.after? lead s).bind (natural? base)

/-- A natural number with an optional plus sign. -/
def unsigned? (s : List Char) : Option Nat :=
  let digits := match s with
    | '+' :: s => s
    | s => s
  match announced? digits with
  | some n => some n
  | none => if isPaddedDigits s then none else natural? 10 digits

def integer? (s : List Char) : Option Int :=
  match unsigned? s with
  | some n => some n
  | none =>
    match s with
    | '-' :: digits =>
      match announced? digits with
      | some n => some (-(n : Int))
      | none => if isPaddedDigits s then none else (natural? 10 digits).map fun n => -(n : Int)
    | _ => none

/-- The exponent of a number, zero if there is none. -/
def exponent? : List Char → Option Int
  | [] => some 0
  | mark :: s =>
    if mark = 'e' || mark = 'E' then
      match s with
      | '-' :: digits => (natural? 10 digits).map fun n => -(n : Int)
      | '+' :: digits => (natural? 10 digits).map fun n => (n : Int)
      | digits => (natural? 10 digits).map fun n => (n : Int)
    else none

/-- A decimal number: digits with at most one point among them, and perhaps an exponent. -/
def decimal? (negative : Bool) (s : List Char) : Option Decimal.Binary64 := do
  let whole := s.takeWhile Char.isDigit
  let rest := s.dropWhile Char.isDigit
  let (fraction, rest) := match rest with
    | '.' :: rest => (rest.takeWhile Char.isDigit, rest.dropWhile Char.isDigit)
    | rest => ([], rest)
  let coefficient ← natural? 10 (whole ++ fraction)
  let exponent ← exponent? rest
  let number := Decimal.Binary64.ofDecimal negative coefficient (exponent - fraction.length)
  if number.isFinite then some number else none

/-- A floating-point number. Numbers beyond the format are none. -/
def float? (s : List Char) : Option Decimal.Binary64 :=
  let unsigned := match s with
    | '+' :: s => s
    | s => s
  let text := String.ofList unsigned
  if text = ".inf" || text = ".Inf" || text = ".INF" then some (.infinite false)
  else if text = "-.inf" || text = "-.Inf" || text = "-.INF" then
    if s = unsigned then some (.infinite true) else none
  else if text = ".nan" || text = ".NaN" || text = ".NAN" then
    if s = unsigned then some .notANumber else none
  else match unsigned with
    | '-' :: digits => if s = unsigned then decimal? true digits else none
    | digits => decimal? false digits

end BuildMatrix.Yaml.Scalar
