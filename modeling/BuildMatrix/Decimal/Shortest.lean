import BuildMatrix.Decimal.Binary64

/-!
# Shortest decimal digits

The decimal digits of a binary number are the fewest that read back as that number, and among those
the nearest to it. A decimal reads back if it lies in the interval of the values that round to the
number; the ends of the interval belong to it if the mantissa is even.
-/

namespace BuildMatrix.Decimal

/-- The value `coefficient · 10 ^ exponent`. -/
structure Digits where
  coefficient : Nat
  exponent : Int
deriving DecidableEq, Repr

namespace Shortest

/--
A positive number with its rounding interval, as naturals over one common denominator: the value
and the distances to both ends of the interval.
-/
structure Interval where
  value : Nat
  below : Nat
  above : Nat
  denominator : Nat
  closed : Bool
deriving DecidableEq, Repr

/-- The interval of the values that round to `mantissa · 2 ^ exponent`. -/
def interval (mantissa : Nat) (exponent : Int) : Interval :=
  let narrow := mantissa = Nat.pow 2 52 && exponent > Binary64.leastExponent
  let up := exponent.toNat
  let down := (-exponent).toNat
  { value := 4 * mantissa * Nat.pow 2 up
    below := (if narrow then 1 else 2) * Nat.pow 2 up
    above := 2 * Nat.pow 2 up
    denominator := 4 * Nat.pow 2 down
    closed := mantissa % 2 = 0 }

/-- The interval with all its naturals over a denominator `factor` times as large. -/
def Interval.rescale (i : Interval) (factor : Nat) : Interval :=
  { i with value := i.value * factor, below := i.below * factor, above := i.above * factor }

/-- Whether `point`, over the same denominator, lies in the interval. -/
def Interval.contains (i : Interval) (point : Nat) : Bool :=
  if i.closed then i.value ≤ point + i.below && point ≤ i.value + i.above
  else i.value < point + i.below && point < i.value + i.above

/-- The place of the first decimal digit: `10 ^ (place - 1) ≤ value < 10 ^ place`. -/
def firstPlace (num den : Nat) : Int :=
  let guess : Int := (Binary64.digitCount num : Int) - (Binary64.digitCount den : Int)
  let reaches :=
    if guess < 0 then num * Nat.pow 10 (-guess).toNat ≥ den
    else num ≥ den * Nat.pow 10 guess.toNat
  if reaches then guess + 1 else guess

/--
The neighbour of the value on the grid of multiples of `10 ^ exponent` that reads back, if any.
-/
def onGrid? (i : Interval) (exponent : Int) : Option Digits :=
  let i := i.rescale (Nat.pow 10 (-exponent).toNat)
  let unit := i.denominator * Nat.pow 10 exponent.toNat
  let low := i.value / unit
  let distance := i.value % unit
  match i.contains (low * unit), i.contains ((low + 1) * unit) with
  | true, true =>
    let nearer := if 2 * distance < unit then low
      else if 2 * distance > unit then low + 1
      else if low % 2 = 0 then low else low + 1
    some ⟨nearer, exponent⟩
  | true, false => some ⟨low, exponent⟩
  | false, true => some ⟨low + 1, exponent⟩
  | false, false => none

/-- The first grid with a hit, each ten times as fine as the one before; `count` grids are tried. -/
def search (i : Interval) : (count : Nat) → (exponent : Int) → Digits
  | 0, exponent => ⟨i.value / i.denominator, exponent⟩
  | count + 1, exponent =>
    match onGrid? i exponent with
    | some digits => digits
    | none => search i count (exponent - 1)

/-- Moves the factors of ten of the coefficient into the exponent, at most `fuel` of them. -/
def stripZeros : (fuel : Nat) → Digits → Digits
  | 0, d => d
  | fuel + 1, d =>
    if d.coefficient ≠ 0 && d.coefficient % 10 = 0 then
      stripZeros fuel ⟨d.coefficient / 10, d.exponent + 1⟩
    else d

/--
The shortest digits of the positive number `mantissa · 2 ^ exponent`; seventeen always suffice.
-/
def digits (mantissa : Nat) (exponent : Int) : Digits :=
  let i := interval mantissa exponent
  stripZeros 18 (search i 18 (firstPlace i.value i.denominator - 1))

end Shortest

end BuildMatrix.Decimal
