import BuildMatrix.Text.Utf8
import Mathlib.Data.String.Basic

/-!
# Texts and their bytes

A text is read back from its bytes. The bytes of a character tell where it ends, so a text starts
with another if and only if its bytes start with the other's bytes.
-/

namespace BuildMatrix.Utf8

theorem toList_loop (bytes : ByteArray) (i : Nat) (read : List UInt8) :
    ByteArray.toList.loop bytes i read = read.reverse ++ bytes.data.toList.drop i := by
  fun_induction ByteArray.toList.loop bytes i read with
  | case1 i read hlt ih =>
      have hlength : i < bytes.data.toList.length := by simpa using hlt
      have hbyte : bytes.get! i = bytes.data.toList[i] := getElem!_pos bytes.data i hlt
      rw [ih, List.reverse_cons, List.append_assoc, List.singleton_append, hbyte,
        ← List.drop_eq_getElem_cons]
  | case2 i read hge =>
      rw [List.drop_of_length_le (by simpa using hge), List.append_nil]

theorem encode_eq (s : String) : encode s = s.toList.flatMap String.utf8EncodeChar := by
  have hbytes : s.toUTF8 = (s.toList.flatMap String.utf8EncodeChar).toByteArray :=
    String.utf8Encode_toList.symm
  rw [encode, hbytes, ByteArray.toList, toList_loop]
  simp

theorem encode_ofList (s : List Char) :
    encode (String.ofList s) = s.flatMap String.utf8EncodeChar := by
  rw [encode_eq, String.toList_ofList]

theorem utf8Len_eq_length {s : List Char} (h : ∀ c ∈ s, c.utf8Size = 1) :
    String.utf8Len s = s.length := by
  induction s with
  | nil => rfl
  | cons c s ih =>
    rw [String.utf8Len_cons, h c List.mem_cons_self,
      ih fun d hd => h d (List.mem_cons_of_mem c hd), List.length_cons]

theorem toNat_ofNat {n : Nat} (h : n < 256) : (UInt8.ofNat n).toNat = n := by
  simpa using Nat.mod_eq_of_lt h

theorem continued_cons (following value bits : Nat) (rest : Bytes) :
    continued (following + 1) value (UInt8.ofNat (bits % 64 + 0x80) :: rest) =
      continued following (value * 64 + bits % 64) rest := by
  have hbits : bits % 64 < 64 := Nat.mod_lt _ (by decide)
  have hnat : (UInt8.ofNat (bits % 64 + 0x80)).toNat = bits % 64 + 128 := toNat_ofNat (by omega)
  have hcontinues : isContinuation (UInt8.ofNat (bits % 64 + 0x80)) = true := by
    simp only [isContinuation, Bool.and_eq_true, decide_eq_true_eq, UInt8.le_iff_toNat_le, hnat]
    exact ⟨Nat.le_add_left _ _, by show bits % 64 + 128 ≤ 191; omega⟩
  have hmod : (bits % 64 + 128) % 64 = bits % 64 := by omega
  rw [continued, if_pos hcontinues, hnat, hmod]

theorem lead?_two : ∀ bits < 32, 2 ≤ bits →
    lead? (UInt8.ofNat (bits + 0xC0)) = some ⟨bits, 1, 0x80, 0xBF⟩ := by
  decide

theorem lead?_three : ∀ bits < 16, lead? (UInt8.ofNat (bits + 0xE0)) =
    some ⟨bits, 2, if bits = 0 then 0xA0 else 0x80, if bits = 13 then 0x9F else 0xBF⟩ := by
  decide

theorem lead?_four : ∀ bits < 5, lead? (UInt8.ofNat (bits + 0xF0)) =
    some ⟨bits, 3, if bits = 0 then 0x90 else 0x80, if bits = 4 then 0x8F else 0xBF⟩ := by
  decide

/-- A character of several bytes is read from its first two bytes and those that continue it. -/
theorem character_of_lead {b : UInt8} {lead : Lead} (hb : ¬b < 0x80) (hlead : lead? b = some lead)
    (bits : Nat) (hlow : lead.low.toNat ≤ bits % 64 + 0x80)
    (hhigh : bits % 64 + 0x80 ≤ lead.high.toNat) (rest : Bytes) :
    character b (UInt8.ofNat (bits % 64 + 0x80) :: rest) =
      continued (lead.following - 1) (lead.bits * 64 + bits % 64) rest := by
  have hbits : bits % 64 < 64 := Nat.mod_lt _ (by decide)
  have hnat : (UInt8.ofNat (bits % 64 + 0x80)).toNat = bits % 64 + 128 := toNat_ofNat (by omega)
  have hrange : (lead.low ≤ UInt8.ofNat (bits % 64 + 0x80) &&
      UInt8.ofNat (bits % 64 + 0x80) ≤ lead.high) = true := by
    simp only [Bool.and_eq_true, decide_eq_true_eq, UInt8.le_iff_toNat_le, hnat]
    exact ⟨hlow, hhigh⟩
  have hmod : (bits % 64 + 128) % 64 = bits % 64 := by omega
  simp only [character, if_neg hb, hlead, if_pos hrange, hnat, hmod]

theorem not_lt_ascii {n : Nat} (h : 0x80 ≤ n) (hn : n < 256) : ¬UInt8.ofNat n < 0x80 := by
  rw [UInt8.lt_iff_toNat_lt, toNat_ofNat hn]
  exact Nat.not_lt.mpr h

theorem ofNat_of_eq {c : Char} {n : Nat} (h : n = c.val.toNat) : Char.ofNat n = c := by
  rw [h]
  exact Char.ofNat_toNat c

/-- A character is read from its bytes, whatever comes after them. -/
theorem character_utf8EncodeChar (c : Char) (rest : Bytes) :
    ∃ b tail, String.utf8EncodeChar c = b :: tail ∧ character b (tail ++ rest) = (some c, rest) := by
  have hvalid : c.val.toNat < 0xD800 ∨ 0xDFFF < c.val.toNat ∧ c.val.toNat < 0x110000 := c.valid
  unfold String.utf8EncodeChar
  generalize hv : c.val.toNat = v at hvalid
  have hc {n : Nat} (h : n = v) : (some (Char.ofNat n), rest) = (some c, rest) := by
    rw [ofNat_of_eq (h.trans hv.symm)]
  by_cases hone : v ≤ 0x7F
  · refine ⟨_, _, if_pos hone, ?_⟩
    have hascii : UInt8.ofNat v < 0x80 := by
      rw [UInt8.lt_iff_toNat_lt, toNat_ofNat (by omega)]
      exact Nat.lt_succ_of_le hone
    rw [character, if_pos hascii, toNat_ofNat (by omega)]
    exact hc rfl
  by_cases htwo : v ≤ 0x7FF
  · refine ⟨_, _, (if_neg hone).trans (if_pos htwo), ?_⟩
    have hlead := lead?_two (v / 64 % 32) (by omega) (by omega)
    refine (character_of_lead (not_lt_ascii (by omega) (by omega)) hlead v ?_ ?_ _).trans
      (hc ?_)
    · exact Nat.le_add_left _ _
    · show v % 64 + 128 ≤ 191
      omega
    · show v / 64 % 32 * 64 + v % 64 = v
      omega
  by_cases hthree : v ≤ 0xFFFF
  · refine ⟨_, _, (if_neg hone).trans ((if_neg htwo).trans (if_pos hthree)), ?_⟩
    have hlead := lead?_three (v / 4096 % 16) (by omega)
    refine (character_of_lead (not_lt_ascii (by omega) (by omega)) hlead (v / 64)
      ?_ ?_ _).trans ?_
    · show UInt8.toNat (if v / 4096 % 16 = 0 then 0xA0 else 0x80) ≤ v / 64 % 64 + 128
      -- A smaller second byte would make an overlong form.
      split
      · show 160 ≤ v / 64 % 64 + 128
        omega
      · exact Nat.le_add_left _ _
    · show v / 64 % 64 + 128 ≤ UInt8.toNat (if v / 4096 % 16 = 13 then 0x9F else 0xBF)
      -- A greater second byte would make a surrogate.
      split
      · show v / 64 % 64 + 128 ≤ 159
        omega
      · show v / 64 % 64 + 128 ≤ 191
        omega
    · refine (continued_cons 0 _ v _).trans (hc ?_)
      show (v / 4096 % 16 * 64 + v / 64 % 64) * 64 + v % 64 = v
      omega
  · refine ⟨_, _, (if_neg hone).trans ((if_neg htwo).trans (if_neg hthree)), ?_⟩
    have hlead := lead?_four (v / 262144 % 8) (by omega)
    refine (character_of_lead (not_lt_ascii (by omega) (by omega)) hlead (v / 4096)
      ?_ ?_ _).trans ?_
    · show UInt8.toNat (if v / 262144 % 8 = 0 then 0x90 else 0x80) ≤ v / 4096 % 64 + 128
      split
      · show 144 ≤ v / 4096 % 64 + 128
        omega
      · exact Nat.le_add_left _ _
    · show v / 4096 % 64 + 128 ≤ UInt8.toNat (if v / 262144 % 8 = 4 then 0x8F else 0xBF)
      split
      · show v / 4096 % 64 + 128 ≤ 143
        omega
      · show v / 4096 % 64 + 128 ≤ 191
        omega
    · refine (continued_cons 1 _ (v / 64) _).trans ((continued_cons 0 _ v _).trans (hc ?_))
      show ((v / 262144 % 8 * 64 + v / 4096 % 64) * 64 + v / 64 % 64) * 64 + v % 64 = v
      omega

theorem characters_flatMap (s : List Char) :
    characters (s.flatMap String.utf8EncodeChar) = s.map some := by
  induction s with
  | nil => rw [List.flatMap_nil, characters, List.map_nil]
  | cons c s ih =>
      obtain ⟨b, tail, hbytes, hread⟩ :=
        character_utf8EncodeChar c (s.flatMap String.utf8EncodeChar)
      rw [List.flatMap_cons, hbytes, List.cons_append, characters, hread, ih, List.map_cons]

theorem decode?_encode (s : String) : decode? (encode s) = some s := by
  have hall : (s.toList.map some).mapM id = some s.toList := by
    induction s.toList with
    | nil => rfl
    | cons c s ih =>
        rw [List.map_cons, List.mapM_cons, ih]
        rfl
  rw [decode?, encode_eq, characters_flatMap, hall, Option.map_some, String.ofList_toList]

theorem flatMap_prefix_iff {a b : List Char} :
    a.flatMap String.utf8EncodeChar <+: b.flatMap String.utf8EncodeChar ↔ a <+: b := by
  constructor
  · rintro ⟨rest, hrest⟩
    induction a generalizing b with
    | nil => exact List.nil_prefix
    | cons c a ih =>
        obtain ⟨byte, tail, hbytes, hread⟩ :=
          character_utf8EncodeChar c (a.flatMap String.utf8EncodeChar ++ rest)
        cases b with
        | nil => simp [hbytes] at hrest
        | cons d b =>
            obtain ⟨byte', tail', hbytes', hread'⟩ :=
              character_utf8EncodeChar d (b.flatMap String.utf8EncodeChar)
            rw [List.flatMap_cons, List.flatMap_cons, hbytes, hbytes', List.append_assoc,
              List.cons_append, List.cons_append] at hrest
            obtain ⟨rfl, htail⟩ := List.cons.inj hrest
            -- Both characters are read from the same bytes.
            rw [htail, hread'] at hread
            obtain ⟨hchar, hafter⟩ := Prod.mk.inj hread
            obtain rfl := Option.some.inj hchar
            exact (List.prefix_cons_inj d).mpr (ih hafter.symm)
  · rintro ⟨rest, rfl⟩
    rw [List.flatMap_append]
    exact List.prefix_append _ _

theorem encode_prefix_iff {a b : String} : encode a <+: encode b ↔ a.toList <+: b.toList := by
  rw [encode_eq, encode_eq, flatMap_prefix_iff]

end BuildMatrix.Utf8
