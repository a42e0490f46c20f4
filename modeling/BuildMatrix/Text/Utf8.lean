/-!
# UTF-8

Bytes are read as text in two ways: strictly, where ill-formed bytes are refused, and with
replacement, where each maximal part that could start a character and does not continue as one
becomes a single replacement character.
-/

namespace BuildMatrix

abbrev Bytes := List UInt8

namespace Utf8

def encode (s : String) : Bytes := s.toUTF8.toList

def isContinuation (b : UInt8) : Bool := 0x80 ≤ b && b ≤ 0xBF

/-- What follows the first byte of a character of several bytes. -/
structure Lead where
  /-- The bits that the first byte gives. -/
  bits : Nat
  following : Nat
  /-- The range of the second byte, which keeps out overlong forms and surrogates. -/
  low : UInt8
  high : UInt8
deriving DecidableEq, Repr

/-- The character length that a first byte announces; none for a byte that starts no character. -/
def lead? (b : UInt8) : Option Lead :=
  if 0xC2 ≤ b && b ≤ 0xDF then some ⟨b.toNat % 32, 1, 0x80, 0xBF⟩
  else if b = 0xE0 then some ⟨0, 2, 0xA0, 0xBF⟩
  else if b = 0xED then some ⟨13, 2, 0x80, 0x9F⟩
  else if 0xE1 ≤ b && b ≤ 0xEF then some ⟨b.toNat % 16, 2, 0x80, 0xBF⟩
  else if b = 0xF0 then some ⟨0, 3, 0x90, 0xBF⟩
  else if 0xF1 ≤ b && b ≤ 0xF3 then some ⟨b.toNat % 8, 3, 0x80, 0xBF⟩
  else if b = 0xF4 then some ⟨4, 3, 0x80, 0x8F⟩
  else none

/-- Reads the continuation bytes of a character whose bits so far are `value`. -/
def continued : (following : Nat) → (value : Nat) → Bytes → Option Char × Bytes
  | 0, value, rest => (some (Char.ofNat value), rest)
  | _ + 1, _, [] => (none, [])
  | following + 1, value, b :: rest =>
    if isContinuation b then continued following (value * 64 + b.toNat % 64) rest
    else (none, b :: rest)

/-- Reads one character after its first byte; none if the bytes up to the rest form no character. -/
def character (b : UInt8) (rest : Bytes) : Option Char × Bytes :=
  if b < 0x80 then (some (Char.ofNat b.toNat), rest)
  else match lead? b with
    | none => (none, rest)
    | some lead =>
      match rest with
      | [] => (none, [])
      | c :: tail =>
        if lead.low ≤ c && c ≤ lead.high then
          continued (lead.following - 1) (lead.bits * 64 + c.toNat % 64) tail
        else (none, c :: tail)

theorem continued_length (following value : Nat) (s : Bytes) :
    (continued following value s).2.length ≤ s.length := by
  induction following generalizing value s with
  | zero => simp [continued]
  | succ n ih =>
    cases s with
    | nil => simp [continued]
    | cons b rest =>
      simp only [continued]
      split
      · have := ih (value * 64 + b.toNat % 64) rest
        simp only [List.length_cons]; omega
      · simp

theorem character_length (b : UInt8) (rest : Bytes) :
    (character b rest).2.length ≤ rest.length := by
  unfold character
  split
  · simp
  · split
    · simp
    · split
      · simp
      · split
        · exact Nat.le_succ_of_le (continued_length _ _ _)
        · simp

/-- The characters of well-formed bytes, and none for each maximal ill-formed part. -/
def characters : Bytes → List (Option Char)
  | [] => []
  | b :: rest => (character b rest).1 :: characters (character b rest).2
termination_by s => s.length
decreasing_by exact Nat.lt_succ_of_le (character_length b rest)

/-- Reads bytes as text, if they are well-formed. -/
def decode? (s : Bytes) : Option String := ((characters s).mapM id).map String.ofList

/-- Reads bytes as text with U+FFFD for each ill-formed part. -/
def decodeLossy (s : Bytes) : String :=
  String.ofList ((characters s).map fun c => c.getD (Char.ofNat 0xFFFD))

end Utf8

end BuildMatrix
