import BuildMatrix.Decimal.Shortest

/-!
# Decimal notations

A notation says between which places a number is written positionally, and how the values that are
no finite numbers are spelled. A number outside of these places is written with an exponent.
-/

namespace BuildMatrix.Decimal

/-- How floating-point numbers are written. -/
structure Style where
  /-- Numbers below `10 ^ lowestPlace` have an exponent. -/
  lowestPlace : Int
  /-- Numbers from `10 ^ highestPlace` on have an exponent. -/
  highestPlace : Int
  /-- What stands before an exponent that is not negative. -/
  plus : String
  notANumber : String
  infinity : String
deriving DecidableEq, Repr

/-- The digits of a coefficient, most significant first. -/
def digitText (n : Nat) : List Char := Nat.toDigits 10 n

/--
Digits with a point such that the number is `digits · 10 ^ exponent`, and `.0` if it is whole.
-/
def positional (digits : List Char) (exponent : Int) : List Char :=
  let place := (digits.length : Int) + exponent
  if exponent ≥ 0 then digits ++ List.replicate exponent.toNat '0' ++ ['.', '0']
  else if place > 0 then digits.take place.toNat ++ '.' :: digits.drop place.toNat
  else '0' :: '.' :: List.replicate (-place).toNat '0' ++ digits

/-- The first digit, the other digits after a point, and the exponent after `e`. -/
def scientific (plus : String) (digits : List Char) (exponent : Int) : List Char :=
  let power := (digits.length : Int) + exponent - 1
  let mantissa := match digits with
    | [] => []
    | [d] => [d]
    | d :: rest => d :: '.' :: rest
  mantissa ++ 'e' :: ((if power < 0 then "" else plus) ++ toString power).toList

def Style.write (style : Style) : Binary64 → String
  | .notANumber => style.notANumber
  | .infinite negative => (if negative then "-" else "") ++ style.infinity
  | .finite negative mantissa exponent =>
    let d := if mantissa = 0 then ⟨0, 0⟩ else Shortest.digits mantissa exponent
    let text := digitText d.coefficient
    let place := (text.length : Int) + d.exponent
    let body :=
      if mantissa = 0 || (style.lowestPlace < place && place ≤ style.highestPlace) then
        positional text d.exponent
      else scientific style.plus text d.exponent
    (if negative then "-" else "") ++ String.ofList body

def configStyle : Style := ⟨-5, 16, "", ".nan", ".inf"⟩

/-- Numbers in a message about a configuration. -/
def messageStyle : Style := ⟨-4, 16, "", "NaN", "inf"⟩

/-- Numbers in JSON, which has only finite ones. -/
def jsonStyle : Style := ⟨-5, 16, "+", "null", "null"⟩

end BuildMatrix.Decimal
