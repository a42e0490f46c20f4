import BuildMatrix.Json.Printer
import BuildMatrix.Json.Source
import BuildMatrix.Proofs.Text.Utf8
import Mathlib.Data.List.Basic

/-!
# Reading quoted texts

A quoted text is read up to its closing quote, and stands for the text that was quoted. The
characters of the text are read one after the other: each is written as itself or as an escape.
-/

namespace BuildMatrix.Json

def escapedBytes (s : List Char) : Bytes :=
  s.flatMap fun c => (escaped c).flatMap String.utf8EncodeChar

theorem encode_quoted (s : String) :
    Utf8.encode (quoted s) = 0x22 :: (escapedBytes s.toList ++ [0x22]) := by
  have hquote : String.utf8EncodeChar '"' = [0x22] := by decide
  rw [quoted, Utf8.encode_ofList, List.flatMap_append, List.flatMap_cons, List.flatMap_cons,
    List.flatMap_nil, List.flatMap_assoc, hquote]
  rfl

/-- A byte that stands for itself in a quoted text. -/
def IsPlain (b : UInt8) : Prop := b ≠ 0x22 ∧ b ≠ 0x5C ∧ ¬b < 0x20

inductive Escape (c : Char) : Bytes → Prop
  | simple (e : UInt8) : Source.isSimpleEscape e → e ≠ 0x75 →
      String.utf8EncodeChar c = [Source.simpleEscape e] → Escape c [0x5C, e]
  | unit (high low : UInt8) : c.toNat < 0x20 →
      Source.hexUnit? [0x30, 0x30, high, low] = some (c.toNat, []) →
      Escape c [0x5C, 0x75, 0x30, 0x30, high, low]
  | plain : (∀ b ∈ String.utf8EncodeChar c, IsPlain b) → Escape c (String.utf8EncodeChar c)

/-- The first bytes of characters beyond ASCII, and those that continue them, are plain. -/
theorem isPlain_of_not_ascii {c : Char} (h : 0x80 ≤ c.toNat) :
    ∀ b ∈ String.utf8EncodeChar c, IsPlain b := by
  have hplain {n : Nat} (hn : n < 256) (hlow : 0x80 ≤ n) : IsPlain (UInt8.ofNat n) := by
    have hnat : (UInt8.ofNat n).toNat = n := Utf8.toNat_ofNat hn
    refine ⟨fun he => ?_, fun he => ?_, fun he => ?_⟩
    · rw [he] at hnat
      have h22 : (0x22 : UInt8).toNat = 34 := rfl
      omega
    · rw [he] at hnat
      have h5C : (0x5C : UInt8).toNat = 92 := rfl
      omega
    · rw [UInt8.lt_iff_toNat_lt, hnat] at he
      have h20 : (0x20 : UInt8).toNat = 32 := rfl
      omega
  have hone : ¬c.val.toNat ≤ 0x7F := Nat.not_le.mpr h
  intro b hb
  unfold String.utf8EncodeChar at hb
  simp only [hone, if_false] at hb
  split at hb
  · simp only [List.mem_cons, List.not_mem_nil, or_false] at hb
    rcases hb with rfl | rfl
    · exact hplain (by omega) (by omega)
    · exact hplain (by omega) (by omega)
  split at hb
  · simp only [List.mem_cons, List.not_mem_nil, or_false] at hb
    rcases hb with rfl | rfl | rfl
    · exact hplain (by omega) (by omega)
    · exact hplain (by omega) (by omega)
    · exact hplain (by omega) (by omega)
  · simp only [List.mem_cons, List.not_mem_nil, or_false] at hb
    rcases hb with rfl | rfl | rfl | rfl
    · exact hplain (by omega) (by omega)
    · exact hplain (by omega) (by omega)
    · exact hplain (by omega) (by omega)
    · exact hplain (by omega) (by omega)

/-- Control characters other than those with an escape of their own are written by number. -/
theorem hexUnit?_hexDigit : ∀ n < 0x20, ∃ high low : UInt8,
    [hexDigit (n / 16), hexDigit n].flatMap String.utf8EncodeChar = [high, low] ∧
      Source.hexUnit? [0x30, 0x30, high, low] = some (n, []) := by
  have hall : ∀ n < 0x20,
      ([hexDigit (n / 16), hexDigit n].flatMap String.utf8EncodeChar).length = 2 ∧
        Source.hexUnit? (0x30 :: 0x30 ::
          [hexDigit (n / 16), hexDigit n].flatMap String.utf8EncodeChar) = some (n, []) := by
    decide
  intro n hn
  obtain ⟨hlength, hunit⟩ := hall n hn
  obtain ⟨high, low, hdigits⟩ := List.length_eq_two.mp hlength
  rw [hdigits] at hunit
  exact ⟨high, low, hdigits, hunit⟩

instance : DecidablePred IsPlain := fun b =>
  inferInstanceAs (Decidable (b ≠ 0x22 ∧ b ≠ 0x5C ∧ ¬b < 0x20))

theorem isPlain_ascii :
    ∀ n < 0x80, 0x20 ≤ n ∧ n ≠ 0x22 ∧ n ≠ 0x5C → IsPlain (UInt8.ofNat n) := by
  decide

theorem escape_escaped (c : Char) : Escape c ((escaped c).flatMap String.utf8EncodeChar) := by
  unfold escaped
  split
  · exact .simple 0x22 rfl (by decide) (by decide)
  · exact .simple 0x5C rfl (by decide) (by decide)
  · exact .simple 0x6E rfl (by decide) (by decide)
  · exact .simple 0x72 rfl (by decide) (by decide)
  · exact .simple 0x74 rfl (by decide) (by decide)
  next hquote hslash _ _ _ =>
  have hchar {n : Nat} (h : c.toNat = n) : c = Char.ofNat n := by
    rw [← h, Char.ofNat_toNat]
  split
  · next h =>
      rw [hchar h]
      exact .simple 0x62 rfl (by decide) (by decide)
  split
  · next h =>
      rw [hchar h]
      exact .simple 0x66 rfl (by decide) (by decide)
  split
  · next h =>
      obtain ⟨high, low, hbytes, hunit⟩ := hexUnit?_hexDigit c.toNat h
      have hstart : ['\\', 'u', '0', '0'].flatMap String.utf8EncodeChar =
          [0x5C, 0x75, 0x30, 0x30] := by
        decide
      have happend : ['\\', 'u', '0', '0', hexDigit (c.toNat / 16), hexDigit c.toNat] =
          ['\\', 'u', '0', '0'] ++ [hexDigit (c.toNat / 16), hexDigit c.toNat] := rfl
      rw [happend, List.flatMap_append, hbytes, hstart]
      exact .unit high low h hunit
  · next h =>
      rw [List.flatMap_singleton]
      apply Escape.plain
      by_cases hascii : c.toNat < 0x80
      · have hbytes : String.utf8EncodeChar c = [UInt8.ofNat c.toNat] :=
          if_pos (Nat.le_of_lt_succ hascii)
        intro b hb
        rw [hbytes, List.mem_singleton] at hb
        subst hb
        refine isPlain_ascii _ hascii ⟨Nat.le_of_not_lt h, fun hn => ?_, fun hn => ?_⟩
        · exact hquote (hchar hn)
        · exact hslash (hchar hn)
      · exact isPlain_of_not_ascii (Nat.le_of_not_lt hascii)

namespace Source

theorem textBody?_plain {b : UInt8} (h : IsPlain b) (rest : Bytes) :
    textBody? (b :: rest) = (textBody? rest).map fun (body, rest) => (b :: body, rest) := by
  obtain ⟨hquote, hslash, hcontrol⟩ := h
  simp [textBody?, hslash, hcontrol]

theorem textBody?_append_plain {bytes : Bytes} (h : ∀ b ∈ bytes, IsPlain b) {rest body tail : Bytes}
    (hrest : textBody? rest = some (body, tail)) :
    textBody? (bytes ++ rest) = some (bytes ++ body, tail) := by
  induction bytes with
  | nil => exact hrest
  | cons b bytes ih =>
      have htail := ih fun b' hb => h b' (List.mem_cons_of_mem _ hb)
      rw [List.cons_append, textBody?_plain (h b List.mem_cons_self), htail]
      rfl

theorem textBody?_escape {c : Char} {bytes : Bytes} (h : Escape c bytes) {rest body tail : Bytes}
    (hrest : textBody? rest = some (body, tail)) :
    textBody? (bytes ++ rest) = some (bytes ++ body, tail) := by
  cases h with
  | simple e hsimple hu _ => simp [textBody?, hu, hsimple, hrest]
  | unit high low _ hunit => simp [textBody?, hunit, hrest]
  | plain hplain => exact textBody?_append_plain hplain hrest

/-- A text ends at the first quote that is not escaped. -/
theorem textBody?_escapedBytes (s : List Char) (rest : Bytes) :
    textBody? (escapedBytes s ++ 0x22 :: rest) = some (escapedBytes s, rest) := by
  induction s with
  | nil => simp [escapedBytes, textBody?]
  | cons c s ih =>
      have hcons : escapedBytes (c :: s) =
          (escaped c).flatMap String.utf8EncodeChar ++ escapedBytes s := List.flatMap_cons
      rw [hcons, List.append_assoc]
      exact textBody?_escape (escape_escaped c) ih

/-- A body stands for given bytes, with as much fuel as it has bytes. -/
def StandsFor (body read : Bytes) : Prop :=
  ∀ fuel, body.length < fuel → unescape? fuel body = some read

theorem standsFor_nil : StandsFor [] [] := by
  intro fuel hfuel
  cases fuel with
  | zero => cases hfuel
  | succ fuel => rfl

theorem StandsFor.append_plain {bytes body read : Bytes} (h : StandsFor body read)
    (hplain : ∀ b ∈ bytes, IsPlain b) : StandsFor (bytes ++ body) (bytes ++ read) := by
  induction bytes with
  | nil => exact h
  | cons b bytes ih =>
      have htail := ih fun b' hb => hplain b' (List.mem_cons_of_mem _ hb)
      have hb : b ≠ 0x5C := (hplain b List.mem_cons_self).2.1
      intro fuel hfuel
      cases fuel with
      | zero => cases hfuel
      | succ fuel =>
          have hrest := htail fuel (Nat.lt_of_succ_lt_succ hfuel)
          simp [unescape?, hb, hrest]

/-- An escape stands for the bytes of its character. -/
theorem StandsFor.append_escape {c : Char} {bytes body read : Bytes} (h : StandsFor body read)
    (hescape : Escape c bytes) :
    StandsFor (bytes ++ body) (String.utf8EncodeChar c ++ read) := by
  cases hescape with
  | simple e _ hu hbytes =>
      intro fuel hfuel
      cases fuel with
      | zero => cases hfuel
      | succ fuel =>
          have hrest := h fuel (by simp at hfuel; omega)
          simp [unescape?, hrest, hbytes]
  | unit high low hcontrol hunit =>
      have hread : hexUnit? (0x30 :: 0x30 :: high :: low :: body) = some (c.toNat, body) := by
        simp only [hexUnit?, Option.bind_eq_bind, Option.bind_eq_some_iff] at hunit ⊢
        obtain ⟨a, ha, b, hb, d, hd, e, he, hvalue⟩ := hunit
        refine ⟨a, ha, b, hb, d, hd, e, he, ?_⟩
        simpa using hvalue
      have hchar : Utf8.encode (String.singleton c) = String.utf8EncodeChar c := by
        rw [Utf8.encode_eq, String.toList_singleton, List.flatMap_singleton]
      intro fuel hfuel
      cases fuel with
      | zero => cases hfuel
      | succ fuel =>
          have hrest := h fuel (by simp at hfuel; omega)
          have hhigh : ¬(0xD800 ≤ c.toNat) := by omega
          have hlow : ¬(0xDC00 ≤ c.toNat) := by omega
          simp [unescape?, hread, hhigh, hlow, hrest, hchar]
  | plain hplain => exact h.append_plain hplain

theorem standsFor_escapedBytes (s : List Char) :
    StandsFor (escapedBytes s) (s.flatMap String.utf8EncodeChar) := by
  induction s with
  | nil => exact standsFor_nil
  | cons c s ih => exact ih.append_escape (escape_escaped c)

theorem decodeText?_escapedBytes (s : String) : decodeText? (escapedBytes s.toList) = some s := by
  have hbytes := standsFor_escapedBytes s.toList _ (Nat.lt_succ_self _)
  rw [← Utf8.encode_eq] at hbytes
  rw [decodeText?, hbytes, Option.bind_some, Utf8.decode?_encode]

end Source

end BuildMatrix.Json
