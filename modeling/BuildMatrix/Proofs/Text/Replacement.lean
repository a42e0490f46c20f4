import BuildMatrix.Proofs.Text.Cut
import Mathlib.Data.List.Infix

/-!
# Cutting and replacing

The parts of a text that is cut at a separator hold no separator, and make up the text with the
separator between them. Conversely, parts that hold no separator are found again in the text that
they make up, if the separator does not begin anew within itself. To replace the separator is to put
another text between the parts.
-/

namespace BuildMatrix.Text

variable {sep s before rest : List Char}

theorem after?_eq_none_iff : after? sep s = none ↔ ¬sep <+: s := by
  rw [← startsWith_iff, startsWith, Option.not_isSome_iff_eq_none]

theorem not_infix_of_cut?_eq_none (hsep : sep ≠ []) (h : cut? sep s = none) : ¬sep <:+: s := by
  induction s with
  | nil => simpa using hsep
  | cons c s ih =>
    have hne : sep.isEmpty = false := List.isEmpty_eq_false_iff.mpr hsep
    simp only [cut?, hne, Bool.false_eq_true, if_false] at h
    split at h
    · cases h
    · next hafter =>
      rw [List.infix_cons_iff, not_or]
      exact ⟨after?_eq_none_iff.mp hafter, ih (Option.map_eq_none_iff.mp h)⟩

theorem not_infix_of_cut? (h : cut? sep s = some (before, rest)) : ¬sep <:+: before := by
  induction s generalizing before with
  | nil => cases h
  | cons c s ih =>
    simp only [cut?] at h
    split at h
    · cases h
    · next hne =>
      have hsep : sep ≠ [] := fun he => hne (by simp [he])
      split at h
      · obtain ⟨rfl, -⟩ := Prod.mk.inj (Option.some.inj h)
        simpa using hsep
      · next hafter =>
        obtain ⟨⟨front, found⟩, hcut, he⟩ := Option.map_eq_some_iff.mp h
        obtain ⟨rfl, rfl⟩ := Prod.mk.inj he
        rw [List.infix_cons_iff, not_or]
        refine ⟨fun hfront => after?_eq_none_iff.mp hafter ?_, ih hcut⟩
        -- A separator at the front of what is before the cut is at the front of the text.
        rw [eq_append_of_cut? hcut, List.append_assoc]
        exact hfront.trans (List.prefix_append (c :: front) (sep ++ found))

theorem splitOn_ne_nil (sep s : List Char) : splitOn sep s ≠ [] := by
  rw [splitOn_eq]
  split <;> simp

theorem intercalate_splitOn (sep s : List Char) : sep.intercalate (splitOn sep s) = s := by
  fun_induction splitOn sep s with
  | case1 s h => exact List.intercalate_singleton
  | case2 s before rest h ih =>
    rw [List.intercalate_cons_of_ne_nil (splitOn_ne_nil sep rest), ih, eq_append_of_cut? h]

theorem not_infix_of_mem_splitOn (hsep : sep ≠ []) {part : List Char} (h : part ∈ splitOn sep s) :
    ¬sep <:+: part := by
  fun_induction splitOn sep s with
  | case1 s hcut =>
    rw [List.mem_singleton.mp h]
    exact not_infix_of_cut?_eq_none hsep hcut
  | case2 s before rest hcut ih =>
    cases List.mem_cons.mp h with
    | inl he => exact he ▸ not_infix_of_cut? hcut
    | inr hmem => exact ih hmem

/-! ### Parts that are found again -/

theorem cut?_eq_none_of_not_infix (h : ¬sep <:+: s) : cut? sep s = none := by
  cases hcut : cut? sep s with
  | none => rfl
  | some cut => exact absurd ⟨cut.1, cut.2, (eq_append_of_cut? hcut).symm⟩ h

/-- The front of a text ends before a given character of it or holds this character. -/
theorem prefix_append_cons {lead t : List Char} {c : Char} (h : lead <+: s ++ c :: t) :
    lead <+: s ∨ s ++ [c] <+: lead := by
  have hplace : s ++ [c] <+: s ++ c :: t := ⟨t, by simp⟩
  cases List.prefix_or_prefix_of_prefix h hplace with
  | inl hbefore =>
    cases List.prefix_concat_iff.mp hbefore with
    | inl heq => exact .inr (heq ▸ List.prefix_rfl)
    | inr hlead => exact .inl hlead
  | inr hbeyond => exact .inr hbeyond

theorem not_prefix_append_cons {t : List Char} {c : Char} (hc : c ∉ sep) (hs : ¬sep <:+: s) :
    ¬sep <+: s ++ c :: t := by
  intro hlead
  cases prefix_append_cons hlead with
  | inl hbefore => exact hs hbefore.isInfix
  | inr hbeyond => exact hc (hbeyond.subset (by simp))

/-- No separator arises around a character that it does not have. -/
theorem not_infix_append_cons {t : List Char} {c : Char} (hc : c ∉ sep) (hs : ¬sep <:+: s)
    (ht : ¬sep <:+: t) : ¬sep <:+: s ++ c :: t := by
  induction s with
  | nil =>
    rw [List.nil_append, List.infix_cons_iff, not_or]
    exact ⟨not_prefix_append_cons hc hs, ht⟩
  | cons d s ih =>
    have hrest : ¬sep <:+: s := fun hinfix => hs (List.infix_cons hinfix)
    rw [List.cons_append, List.infix_cons_iff, not_or]
    exact ⟨not_prefix_append_cons hc hs, ih hrest⟩

/--
The cut is right behind a part without a separator. A separator that began within the part would
have its first character again where the actual one begins.
-/
theorem cut?_part {a : Char} {part : List Char} (ha : a ∉ sep) (h : ¬a :: sep <:+: part)
    (rest : List Char) : cut? (a :: sep) (part ++ a :: (sep ++ rest)) = some (part, rest) := by
  induction part with
  | nil => rw [List.nil_append, cut?_front, after?_append_self]
  | cons c part ih =>
    have hafter : after? (a :: sep) (c :: (part ++ a :: (sep ++ rest))) = none := by
      apply after?_eq_none_iff.mpr
      intro hlead
      cases prefix_append_cons (s := c :: part) hlead with
      | inl hbefore => exact h hbefore.isInfix
      | inr hbeyond => exact ha ((List.cons_prefix_cons.mp hbeyond).2.subset (by simp))
    have hpart : ¬a :: sep <:+: part := fun hinfix => h (List.infix_cons hinfix)
    simp [cut?, hafter, ih hpart]

theorem splitOn_intercalate {a : Char} {parts : List (List Char)} (ha : a ∉ sep)
    (hne : parts ≠ []) (h : ∀ part ∈ parts, ¬a :: sep <:+: part) :
    splitOn (a :: sep) ((a :: sep).intercalate parts) = parts := by
  induction parts with
  | nil => exact absurd rfl hne
  | cons part parts ih =>
    obtain ⟨hpart, hparts⟩ := List.forall_mem_cons.mp h
    cases parts with
    | nil => rw [List.intercalate_singleton, splitOn_eq, cut?_eq_none_of_not_infix hpart]
    | cons next parts =>
      have hrest := ih (by simp) hparts
      rw [List.intercalate_cons_cons, List.append_assoc, List.cons_append, splitOn_eq,
        cut?_part ha hpart]
      simp only [hrest]

/-! ### Replacing -/

theorem replace_eq_intercalate (old new s : List Char) :
    replace old new s = new.intercalate (splitOn old s) := by
  fun_induction replace old new s with
  | case1 s h => rw [splitOn_eq, h, List.intercalate_singleton]
  | case2 s before rest h ih =>
    rw [splitOn_eq, h, List.intercalate_cons_of_ne_nil (splitOn_ne_nil old rest), ih]

/-- A text has one text in place of another one, between parts that do not hold it. -/
def Replaced (old new s t : String) : Prop :=
  ∃ parts : List (List Char), parts ≠ [] ∧ (∀ part ∈ parts, ¬old.toList <:+: part) ∧
    s.toList = old.toList.intercalate parts ∧ t.toList = new.toList.intercalate parts

theorem replaced_replace {old : String} (hold : old ≠ "") (new s : String) :
    Replaced old new s (String.ofList (replace old.toList new.toList s.toList)) := by
  refine ⟨splitOn old.toList s.toList, splitOn_ne_nil _ _, ?_, ?_, ?_⟩
  · intro part hpart
    exact not_infix_of_mem_splitOn (by simpa using hold) hpart
  · exact (intercalate_splitOn _ _).symm
  · rw [String.toList_ofList, replace_eq_intercalate]

end BuildMatrix.Text
