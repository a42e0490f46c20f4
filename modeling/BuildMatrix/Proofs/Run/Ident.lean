import BuildMatrix.Ident
import BuildMatrix.Proofs.Text.Utf8

/-!
# Identifiers are read back

The text of an identifier has 36 characters of one byte each, so it is read in its grouped form.
-/

namespace BuildMatrix.Ident

theorem isLowerHexDigit_iff {c : Char} :
    isLowerHexDigit c ↔
      (48 ≤ c.val.toNat ∧ c.val.toNat ≤ 57) ∨ (97 ≤ c.val.toNat ∧ c.val.toNat ≤ 102) := by
  simp only [isLowerHexDigit, Char.isDigit, Bool.or_eq_true, Bool.and_eq_true, decide_eq_true_eq,
    Char.le_def, UInt32.le_iff_toNat_le, ge_iff_le]
  exact Iff.rfl

theorem toLower_eq_self {c : Char} (h : isLowerHexDigit c) : c.toLower = c := by
  have hbounds := isLowerHexDigit_iff.mp h
  refine dif_neg fun hupper => ?_
  simp only [ge_iff_le, UInt32.le_iff_toNat_le] at hupper
  have hA : ('A' : Char).val.toNat = 65 := rfl
  have hZ : ('Z' : Char).val.toNat = 90 := rfl
  omega

theorem utf8Size_eq_one {c : Char} (h : isLowerHexDigit c) : c.utf8Size = 1 := by
  have hbounds := isLowerHexDigit_iff.mp h
  rw [Char.utf8Size_eq_one_iff, UInt32.le_iff_toNat_le]
  show c.val.toNat ≤ 127
  omega

theorem cut_at_dash {n : Nat} {group : List Char} (hlength : group.length = n) (rest : List Char) :
    (group ++ '-' :: rest).take n = group ∧ (group ++ '-' :: rest)[n]? = some '-' ∧
      (group ++ '-' :: rest).drop (n + 1) = rest := by
  refine ⟨List.take_left' hlength, ?_, ?_⟩
  · rw [List.getElem?_append_right (Nat.le_of_eq hlength), hlength, Nat.sub_self,
      List.getElem?_cons_zero]
  · rw [List.append_cons]
    exact List.drop_left' (by simp [hlength])

theorem ofDigits?_digits (id : Ident) : ofDigits? id.digits = some id := by
  have hwellFormed := id.isWellFormed
  rw [Bool.and_eq_true, List.all_eq_true] at hwellFormed
  have hlower : id.digits.map Char.toLower = id.digits :=
    (List.map_congr_left fun c hc => toLower_eq_self (hwellFormed.2 c hc)).trans (List.map_id _)
  simp only [ofDigits?, hlower]
  exact dif_pos id.isWellFormed

theorem ofGroups?_dashed {a b c d e : List Char} (ha : a.length = 8) (hb : b.length = 4)
    (hc : c.length = 4) (hd : d.length = 4) (he : e.length = 12) :
    ofGroups? (a ++ '-' :: (b ++ '-' :: (c ++ '-' :: (d ++ '-' :: e)))) =
      ofDigits? (a ++ b ++ c ++ d ++ e) := by
  have hlength : (a ++ '-' :: (b ++ '-' :: (c ++ '-' :: (d ++ '-' :: e)))).length = 36 := by
    simp [ha, hb, hc, hd, he]
  obtain ⟨htake₁, hdash₁, hdrop₁⟩ := cut_at_dash ha (b ++ '-' :: (c ++ '-' :: (d ++ '-' :: e)))
  obtain ⟨htake₂, hdash₂, hdrop₂⟩ := cut_at_dash hb (c ++ '-' :: (d ++ '-' :: e))
  obtain ⟨htake₃, hdash₃, hdrop₃⟩ := cut_at_dash hc (d ++ '-' :: e)
  obtain ⟨htake₄, hdash₄, hdrop₄⟩ := cut_at_dash hd e
  generalize hs : a ++ '-' :: (b ++ '-' :: (c ++ '-' :: (d ++ '-' :: e))) = s at *
  generalize b ++ '-' :: (c ++ '-' :: (d ++ '-' :: e)) = s₁ at *
  generalize c ++ '-' :: (d ++ '-' :: e) = s₂ at *
  generalize d ++ '-' :: e = s₃ at *
  -- Each index into the text is one into the text behind a dash.
  have hdrop₁₄ : s.drop 14 = s₂ := by rw [← hdrop₂, ← hdrop₁, List.drop_drop]
  have hdrop₁₉ : s.drop 19 = s₃ := by rw [← hdrop₃, ← hdrop₁₄, List.drop_drop]
  have hdrop₂₄ : s.drop 24 = e := by rw [← hdrop₄, ← hdrop₁₉, List.drop_drop]
  have hdash₁₃ : s[13]? = some '-' := by rw [← hdash₂, ← hdrop₁, List.getElem?_drop]
  have hdash₁₈ : s[18]? = some '-' := by rw [← hdash₃, ← hdrop₁₄, List.getElem?_drop]
  have hdash₂₃ : s[23]? = some '-' := by rw [← hdash₄, ← hdrop₁₉, List.getElem?_drop]
  simp only [ofGroups?, hlength, hdash₁, hdash₁₃, hdash₁₈, hdash₂₃, htake₁, hdrop₁, htake₂,
    hdrop₁₄, htake₃, hdrop₁₉, htake₄, hdrop₂₄]
  rfl

theorem length_digits (id : Ident) : id.digits.length = 32 := by
  have hwellFormed := id.isWellFormed
  rw [Bool.and_eq_true, decide_eq_true_eq] at hwellFormed
  exact hwellFormed.1

theorem toList_render (id : Ident) :
    id.render.toList = id.digits.take 8 ++ '-' :: ((id.digits.drop 8).take 4 ++
      '-' :: ((id.digits.drop 12).take 4 ++ '-' :: ((id.digits.drop 16).take 4 ++
        '-' :: id.digits.drop 20))) := by
  simp only [render, String.toList_ofList, List.append_assoc, List.cons_append]

theorem ofGroups?_render (id : Ident) : ofGroups? id.render.toList = some id := by
  have hlength := length_digits id
  rw [toList_render, ofGroups?_dashed (by simp [hlength]) (by simp [hlength]) (by simp [hlength])
    (by simp [hlength]) (by simp [hlength])]
  have hgroups : id.digits.take 8 ++ (id.digits.drop 8).take 4 ++ (id.digits.drop 12).take 4 ++
      (id.digits.drop 16).take 4 ++ id.digits.drop 20 = id.digits := by
    rw [← List.take_add, ← List.take_add, ← List.take_add, List.take_append_drop]
  rw [hgroups, ofDigits?_digits]

theorem utf8ByteSize_render (id : Ident) : id.render.utf8ByteSize = 36 := by
  have hlength := length_digits id
  have hdigits := id.isWellFormed
  rw [Bool.and_eq_true, List.all_eq_true] at hdigits
  have hsize {c : Char} (hc : c ∈ id.digits) : c.utf8Size = 1 := utf8Size_eq_one (hdigits.2 c hc)
  have hdash : ('-' : Char).utf8Size = 1 := rfl
  rw [← String.ofList_toList (s := id.render), String.utf8ByteSize_ofList, Utf8.utf8Len_eq_length]
  · rw [toList_render]
    simp [hlength]
  · intro c hc
    rw [toList_render] at hc
    simp only [List.mem_append, List.mem_cons] at hc
    have hdrop {n : Nat} (h : c ∈ id.digits.drop n) : c.utf8Size = 1 :=
      hsize (List.mem_of_mem_drop h)
    rcases hc with h | rfl | h | rfl | h | rfl | h | rfl | h
    exacts [hsize (List.mem_of_mem_take h), hdash, hdrop (List.mem_of_mem_take h), hdash,
      hdrop (List.mem_of_mem_take h), hdash, hdrop (List.mem_of_mem_take h), hdash, hdrop h]

theorem read?_render (id : Ident) : read? id.render = some id := by
  rw [read?, utf8ByteSize_render]
  exact ofGroups?_render id

end BuildMatrix.Ident
