import BuildMatrix.Text.Blank
import BuildMatrix.Text.Split
import Mathlib.Data.List.Basic

/-!
# Cuts at a separator

The first occurrence of a separator lies behind every part of the text that lacks the separator's
first character.
-/

namespace BuildMatrix.Text

theorem startsWith_iff {lead s : List Char} : startsWith lead s ↔ lead <+: s := by
  induction lead generalizing s with
  | nil => simp [startsWith, after?]
  | cons a lead ih =>
      cases s with
      | nil => simp [startsWith, after?]
      | cons b s =>
          by_cases h : a = b
          · subst h
            simpa [startsWith, after?] using ih (s := s)
          · simp [startsWith, after?, h]

/-- A text does not start with what holds a character that it lacks. -/
theorem after?_eq_none {a : Char} {lead s : List Char} (hlead : a ∈ lead) (hs : a ∉ s) :
    after? lead s = none := by
  induction lead generalizing s with
  | nil => cases hlead
  | cons b lead ih =>
    cases s with
    | nil => rfl
    | cons c s =>
      rw [after?]
      split
      · next hc =>
          have hne : a ≠ b := fun he => hs (by simp [he, hc])
          exact ih ((List.mem_cons.mp hlead).resolve_left hne)
            fun hmem => hs (List.mem_cons_of_mem c hmem)
      · rfl

/-- What follows a word and a character that the word lacks. -/
theorem after?_ended {a : Char} {word s : List Char} (hword : a ∉ word) (hs : a ∉ s)
    (t : List Char) : after? (word ++ [a]) (s ++ a :: t) = if s = word then some t else none := by
  induction word generalizing s with
  | nil =>
    cases s with
    | nil => simp [after?]
    | cons c s =>
      have hne : a ≠ c := fun he => hs (by simp [he])
      simp [after?, hne]
  | cons b word ih =>
    cases s with
    | nil =>
      have hne : b ≠ a := fun he => hword (by simp [he])
      simp [after?, hne]
    | cons c s =>
      have hword' : a ∉ word := fun hmem => hword (List.mem_cons_of_mem b hmem)
      have hs' : a ∉ s := fun hmem => hs (List.mem_cons_of_mem c hmem)
      by_cases hc : b = c
      · subst hc
        simp only [List.cons_append, after?, if_true, ih hword' hs', List.cons.injEq, true_and]
      · have hne : ¬(c = b ∧ s = word) := fun he => hc he.1.symm
        simp only [List.cons_append, after?, hc, if_false, List.cons.injEq, hne]

variable {a : Char} {sep s : List Char}

theorem cut?_append (h : a ∉ s) (t : List Char) :
    cut? (a :: sep) (s ++ t) = (cut? (a :: sep) t).map fun cut => (s ++ cut.1, cut.2) := by
  induction s with
  | nil => simp
  | cons c s ih =>
    have hne : a ≠ c := fun he => h (by simp [he])
    have hs : a ∉ s := fun hmem => h (List.mem_cons_of_mem c hmem)
    have hafter : after? (a :: sep) (c :: (s ++ t)) = none := by simp [after?, hne]
    simp only [List.cons_append, cut?, List.isEmpty_cons, Bool.false_eq_true, if_false, hafter,
      ih hs, Option.map_map]
    rfl

theorem cut?_eq_none (h : a ∉ s) : cut? (a :: sep) s = none := by
  have hcut : cut? (a :: sep) (s ++ []) = _ := cut?_append h []
  rwa [List.append_nil] at hcut

theorem cut?_front (t : List Char) :
    cut? (a :: sep) (a :: t) =
      match after? sep t with
      | some rest => some ([], rest)
      | none => (cut? (a :: sep) t).map fun cut => (a :: cut.1, cut.2) := by
  cases hrest : after? sep t with
  | none => simp [cut?, after?, hrest]
  | some rest => simp [cut?, after?, hrest]

theorem eq_append_of_after? {lead s rest : List Char} (h : after? lead s = some rest) :
    s = lead ++ rest := by
  induction lead generalizing s with
  | nil => exact Option.some.inj h
  | cons b lead ih =>
    cases s with
    | nil => cases h
    | cons c s =>
      rw [after?] at h
      split at h
      · next hc => rw [hc, List.cons_append, ih h]
      · cases h

theorem after?_append_self (lead s : List Char) : after? lead (lead ++ s) = some s := by
  induction lead with
  | nil => rfl
  | cons c lead ih => rw [List.cons_append, after?, if_pos rfl, ih]

theorem eq_append_of_cut? {before rest : List Char} (h : cut? sep s = some (before, rest)) :
    s = before ++ sep ++ rest := by
  induction s generalizing before with
  | nil => cases h
  | cons c s ih =>
    simp only [cut?] at h
    split at h
    · cases h
    split at h
    · next found hfound =>
        obtain ⟨rfl, rfl⟩ := Prod.mk.inj (Option.some.inj h)
        exact eq_append_of_after? hfound
    · obtain ⟨⟨front, found⟩, hcut, he⟩ := Option.map_eq_some_iff.mp h
      obtain ⟨rfl, rfl⟩ := Prod.mk.inj he
      rw [ih hcut]
      rfl

theorem splitOn_eq (sep s : List Char) :
    splitOn sep s =
      match cut? sep s with
      | none => [s]
      | some (before, rest) => before :: splitOn sep rest := by
  rw [splitOn]
  split
  · next h => rw [h]
  · next h => rw [h]

theorem trim_eq_self {s : List Char} (hfirst : ∀ c ∈ s.head?, ¬isBlank c)
    (hlast : ∀ c ∈ s.getLast?, ¬isBlank c) : trim s = s := by
  have hdrop {t : List Char} (h : ∀ c ∈ t.head?, ¬isBlank c) : t.dropWhile isBlank = t := by
    cases t with
    | nil => rfl
    | cons c t => exact List.dropWhile_cons_of_neg (h c rfl)
  rw [trim, trimStart, hdrop hfirst, trimEnd, hdrop (by rwa [List.head?_reverse]),
    List.reverse_reverse]

end BuildMatrix.Text
