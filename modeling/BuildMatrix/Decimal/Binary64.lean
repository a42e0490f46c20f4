/-!
# Binary floating-point numbers

The finite numbers of the 64-bit binary format are the values `± m · 2 ^ q` with `m < 2 ^ 53` and
`-1074 ≤ q ≤ 971`. A number is kept with the smallest exponent that fits, so each finite value has
one form for each sign. A quotient of naturals is rounded to the nearest number; a tie goes to the
even neighbour.
-/

namespace BuildMatrix.Decimal

/-- A number of the 64-bit binary floating-point format. -/
inductive Binary64 where
  | notANumber
  | infinite (negative : Bool)
  | finite (negative : Bool) (mantissa : Nat) (exponent : Int)
deriving DecidableEq, Repr

/-- The quotient rounded to the nearest natural, a tie to the even one. -/
def roundHalfEven (num den : Nat) : Nat :=
  let q := num / den
  let r := num % den
  if 2 * r < den then q
  else if 2 * r > den then q + 1
  else if q % 2 = 0 then q else q + 1

namespace Binary64

/-- The least exponent, that of the subnormal numbers. -/
def leastExponent : Int := -1074

def largestExponent : Int := 971

/-- The numerator and denominator after division by `2 ^ exponent`. -/
def unscale (num den : Nat) (exponent : Int) : Nat × Nat :=
  if exponent < 0 then (num * Nat.pow 2 (-exponent).toNat, den)
  else (num, den * Nat.pow 2 exponent.toNat)

/-- The exponent at which a positive quotient has a mantissa of 53 bits, if that is not too low. -/
def exponentOf (num den : Nat) : Int :=
  let guess : Int := (num.log2 : Int) - (den.log2 : Int) - 52
  let scaled := unscale num den guess
  let exact := if scaled.1 < scaled.2 * Nat.pow 2 52 then guess - 1 else guess
  max exact leastExponent

/-- The number nearest to a quotient of naturals. -/
def ofRatio (negative : Bool) (num den : Nat) : Binary64 :=
  if num = 0 then .finite negative 0 leastExponent
  else
    let exponent := exponentOf num den
    let scaled := unscale num den exponent
    let mantissa := roundHalfEven scaled.1 scaled.2
    let rounded :=
      if mantissa = Nat.pow 2 53 then (Nat.pow 2 52, exponent + 1) else (mantissa, exponent)
    if rounded.2 > largestExponent then .infinite negative
    else .finite negative rounded.1 rounded.2

/-- The number of decimal digits of a natural, one for zero. -/
def digitCount (n : Nat) : Nat := (Nat.toDigits 10 n).length

/--
The number nearest to `coefficient · 10 ^ exponent`. Exponents far outside of the range of the
format are decided by the place of the first digit, without computing the power.
-/
def ofDecimal (negative : Bool) (coefficient : Nat) (exponent : Int) : Binary64 :=
  let place := (digitCount coefficient : Int) + exponent
  if coefficient = 0 || place < -400 then .finite negative 0 leastExponent
  else if place > 400 then .infinite negative
  else if exponent < 0 then ofRatio negative coefficient (Nat.pow 10 (-exponent).toNat)
  else ofRatio negative (coefficient * Nat.pow 10 exponent.toNat) 1

def isFinite : Binary64 → Bool
  | .finite .. => true
  | _ => false

/-- Equality of numbers: both zeros are equal, and so are two results that are no numbers. -/
def same : Binary64 → Binary64 → Bool
  | .finite n m q, .finite n' m' q' => if m = 0 then m' = 0 else n = n' && m = m' && q = q'
  | a, b => a == b

end Binary64

end BuildMatrix.Decimal
