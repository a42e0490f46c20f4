import BuildMatrix.Proofs.Provision.Selection

/-!
# Requests as fronts of versions

A request is satisfied by the versions whose components begin with its own. Components are whole, so
`3.1` is satisfied by `3.1.4` and not by `3.10`; they may be empty, as behind a dot at the end.
-/

namespace BuildMatrix.Version

section
variable {α : Type} {xs ys : List (List α)}

theorem intercalate_append (sep : List α) (hx : xs ≠ []) (hy : ys ≠ []) :
    sep.intercalate (xs ++ ys) = sep.intercalate xs ++ sep ++ sep.intercalate ys := by
  induction xs with
  | nil => exact absurd rfl hx
  | cons x xs ih =>
    by_cases hnil : xs = []
    · rw [hnil, List.singleton_append, List.intercalate_cons_of_ne_nil hy,
        List.intercalate_singleton]
    · have hne : xs ++ ys ≠ [] := List.append_ne_nil_of_left_ne_nil hnil ys
      rw [List.cons_append, List.intercalate_cons_of_ne_nil hne,
        List.intercalate_cons_of_ne_nil hnil, ih hnil]
      simp only [List.append_assoc]

end

/-- A text is a front of another one that ends at a separator if its parts come first there. -/
theorem splitOn_prefix_iff (sep : Char) (s t : List Char) :
    s.splitOn sep <+: t.splitOn sep ↔ t = s ∨ ∃ rest, t = s ++ sep :: rest := by
  constructor
  · intro h
    obtain ⟨parts, hparts⟩ := h
    have ht : t = [sep].intercalate (s.splitOn sep ++ parts) := by
      rw [hparts, List.intercalate_splitOn]
    by_cases hnil : parts = []
    · left
      rw [ht, hnil, List.append_nil, List.intercalate_splitOn]
    · right
      have hs : s.splitOn sep ≠ [] := List.splitOnP_ne_nil _ s
      refine ⟨[sep].intercalate parts, ?_⟩
      rw [ht, intercalate_append [sep] hs hnil, List.intercalate_splitOn, List.append_assoc,
        List.singleton_append]
  · intro h
    cases h with
    | inl h => rw [h]
    | inr h =>
      obtain ⟨rest, rfl⟩ := h
      rw [List.splitOn_eq_splitOnP, List.splitOn_eq_splitOnP,
        List.splitOnP_append_cons (p := (· == sep)) s rest (beq_self_eq_true sep)]
      exact List.prefix_append _ _

def components (version : String) : List (List Char) := version.toList.splitOn '.'

theorem components_inj {p q : String} : components p = components q ↔ p = q := by
  constructor
  · intro h
    have hjoined : ['.'].intercalate (components p) = ['.'].intercalate (components q) := by rw [h]
    rw [components, components, List.intercalate_splitOn, List.intercalate_splitOn] at hjoined
    exact String.toList_inj.mp hjoined
  · exact congrArg components

theorem satisfies_iff_components (requested reported : String) :
    satisfies requested reported ↔ components requested <+: components reported := by
  rw [satisfies_iff, Satisfies, components, components, splitOn_prefix_iff, String.toList_inj]
  apply or_congr_right
  constructor
  · intro h
    obtain ⟨rest, rfl⟩ := h
    exact ⟨rest.toList, by simp⟩
  · intro h
    obtain ⟨rest, hrest⟩ := h
    exact ⟨String.ofList rest, String.toList_inj.mp (by simp [hrest])⟩

/-- The order of versions in which each version comes before what has more components. -/
structure IsComponentOrder (accepts : String → String → Bool) : Prop where
  iff_prefix : ∀ requested reported,
    accepts requested reported ↔ components requested <+: components reported
  refl : ∀ version, accepts version version
  trans : ∀ p q r, accepts p q → accepts q r → accepts p r
  antisymm : ∀ p q, accepts p q → accepts q p → p = q
  /-- Of two requests that one version satisfies, one is a continuation of the other. -/
  comparable : ∀ p q reported, accepts p reported → accepts q reported → accepts p q ∨ accepts q p
  /-- A request does not accept what goes on without a dot, whatever comes behind that. -/
  not_extended : ∀ (requested : String) (c : Char) (rest : List Char), c ≠ '.' →
    accepts requested (requested ++ String.ofList (c :: rest)) = false

theorem satisfies_componentOrder : IsComponentOrder satisfies := by
  constructor
  case iff_prefix => exact satisfies_iff_components
  case refl =>
    intro version
    rw [satisfies_iff_components]
  case trans =>
    intro p q r hpq hqr
    rw [satisfies_iff_components] at hpq hqr ⊢
    exact hpq.trans hqr
  case antisymm =>
    intro p q hpq hqp
    rw [satisfies_iff_components] at hpq hqp
    apply components_inj.mp
    exact hpq.eq_of_length_le hqp.length_le
  case comparable =>
    intro p q reported hp hq
    rw [satisfies_iff_components] at hp hq
    rw [satisfies_iff_components, satisfies_iff_components]
    exact List.prefix_or_prefix_of_prefix hp hq
  case not_extended =>
    intro requested c rest hc
    rw [← Bool.not_eq_true, satisfies_iff]
    intro h
    cases h with
    | inl h => simpa using congrArg String.toList h
    | inr h =>
      obtain ⟨other, hother⟩ := h
      have hlist := congrArg String.toList hother
      simp only [String.toList_append, String.toList_ofList, List.append_assoc,
        List.append_cancel_left_eq] at hlist
      exact hc (List.cons.inj hlist).1

/-- Empty components count: a dot at the end of a request asks for one. -/
example : satisfies "3." "3..1" = true ∧ satisfies "3." "3.1" = false ∧
    satisfies "3.1" "3.10.2" = false := by
  decide +kernel

end BuildMatrix.Version
