import BuildMatrix.Text.Blank
import BuildMatrix.Time.Calendar

/-!
# Instants

An instant is a point of universal time with nanoseconds. Its text follows RFC 3339. Reading is
more lenient than the standard: blank characters may stand before each number and around the
separators, digits may be missing where a number is not padded, and the offset may lack its colon.
A leap second is the second 60 of its minute and is kept as nanoseconds beyond the second 59.
-/

namespace BuildMatrix

/-- A point of universal time. -/
structure Instant where
  /-- Seconds from 1970-01-01T00:00:00Z. -/
  seconds : Int
  /-- Nanoseconds within the second; from `10 ^ 9` on within a leap second. -/
  nanoseconds : Nat
deriving DecidableEq, Repr

namespace Instant

/-- 1970-01-01T00:00:00Z. -/
def epoch : Instant := ⟨0, 0⟩

/-- A number with zeros before it up to a width. -/
def padded (width n : Nat) : String :=
  let digits := toString n
  String.ofList (List.replicate (width - digits.length) '0') ++ digits

/-- A year, with four digits and a sign if it is negative or needs more than four digits. -/
def yearText (year : Int) : String :=
  if 0 ≤ year && year ≤ 9999 then padded 4 year.toNat
  else if year < 0 then "-" ++ padded 4 (-year).toNat
  else "+" ++ padded 4 year.toNat

/-- The fraction of a second, with as many groups of three digits as are needed. -/
def fractionText (nanoseconds : Nat) : String :=
  if nanoseconds = 0 then ""
  else if nanoseconds % 1000000 = 0 then "." ++ padded 3 (nanoseconds / 1000000)
  else if nanoseconds % 1000 = 0 then "." ++ padded 6 (nanoseconds / 1000)
  else "." ++ padded 9 nanoseconds

def localText (t : Instant) : String :=
  let date := Time.Date.ofDays (t.seconds / 86400)
  let second := (t.seconds % 86400).toNat
  let leap := t.nanoseconds / 1000000000
  yearText date.year ++ "-" ++ padded 2 date.month ++ "-" ++ padded 2 date.day ++ "T"
    ++ padded 2 (second / 3600) ++ ":" ++ padded 2 (second / 60 % 60) ++ ":"
    ++ padded 2 (second % 60 + leap) ++ fractionText (t.nanoseconds % 1000000000)

/-- The text with the offset `Z`. -/
def render (t : Instant) : String := t.localText ++ "Z"

/-- The text with the offset `+00:00`. -/
def renderOffset (t : Instant) : String := t.localText ++ "+00:00"

def isDigit (c : Char) : Bool := c.isDigit

def digitsValue (digits : List Char) : Nat :=
  digits.foldl (fun n c => n * 10 + (c.toNat - 48)) 0

/-- One to `width` digits, and the rest. -/
def number? (width : Nat) (s : List Char) : Option (Nat × List Char) :=
  match (s.take width).takeWhile isDigit with
  | [] => none
  | digits => some (digitsValue digits, s.drop digits.length)

/-- A number after blank characters that lies within bounds, and the rest. -/
def field? (width low high : Nat) (s : List Char) : Option (Nat × List Char) := do
  let (n, s) ← number? width (Text.trimStart s)
  if low ≤ n && n ≤ high then some (n, s) else none

/-- A year of up to four digits, or of any number of digits after a sign, and the rest. -/
def year? (s : List Char) : Option (Int × List Char) :=
  match Text.trimStart s with
  | '-' :: s => (number? s.length s).map fun (n, s) => (-(n : Int), s)
  | '+' :: s => (number? s.length s).map fun (n, s) => ((n : Int), s)
  | s => (number? 4 s).map fun (n, s) => ((n : Int), s)

/-- The rest after a separator, which blank characters may precede. -/
def separator? (c : Char) (s : List Char) : Option (List Char) :=
  match Text.trimStart s with
  | d :: s => if d = c then some s else none
  | [] => none

/-- The nanoseconds after a point, if there is one; digits beyond the ninth are dropped. -/
def fraction? : List Char → Option (Nat × List Char)
  | '.' :: s =>
    match s.takeWhile isDigit with
    | [] => none
    | digits =>
      let kept := digits.take 9
      some (digitsValue kept * Nat.pow 10 (9 - kept.length), s.dropWhile isDigit)
  | s => some (0, s)

/-- Two digits, and the rest. -/
def twoDigits? : List Char → Option (Nat × List Char)
  | a :: b :: s => if isDigit a && isDigit b then some (digitsValue [a, b], s) else none
  | _ => none

/-- The seconds by which local time is ahead, and the rest. -/
def offset? (s : List Char) : Option (Int × List Char) :=
  match Text.trimStart s with
  | [] => none
  | c :: s =>
    if c = 'Z' || c = 'z' then some (0, s)
    else if (c :: s.take 2).map Char.toUpper = ['U', 'T', 'C'] then some (0, s.drop 2)
    else do
      let negative ← if c = '+' then some false
        else if c = '-' || c = '−' then some true else none
      let (hours, s) ← twoDigits? s
      let (minutes, s) ← twoDigits? (s.dropWhile fun c => c = ':' || Text.isBlank c)
      if minutes ≥ 60 || hours ≥ 24 then none
      else
        let seconds : Int := hours * 3600 + minutes * 60
        some (if negative then -seconds else seconds, s)

def read? (text : String) : Option Instant := do
  let (year, s) ← year? text.toList
  let s ← separator? '-' s
  let (month, s) ← field? 2 1 12 s
  let s ← separator? '-' s
  let (day, s) ← field? 2 1 31 s
  let s ← match s with
    | c :: s => if c = 't' || c = 'T' || c = ' ' then some s else none
    | [] => none
  let (hour, s) ← field? 2 0 23 s
  let s ← separator? ':' s
  let (minute, s) ← field? 2 0 59 s
  let s ← separator? ':' s
  let (second, s) ← field? 2 0 60 s
  let (nanoseconds, s) ← fraction? s
  let (offset, s) ← offset? s
  let date : Time.Date := ⟨year, month, day⟩
  if !(Text.trimStart s).isEmpty || !date.isValid then none
  else
    let leap := second / 60
    let ofDay := hour * 3600 + minute * 60 + (second - leap)
    let seconds := date.toDays * 86400 + (ofDay : Nat) - offset
    some ⟨seconds, nanoseconds + leap * 1000000000⟩

end Instant

end BuildMatrix
