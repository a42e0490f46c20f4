import BuildMatrix.Proofs.Matrix.Expansion
import Mathlib.Algebra.BigOperators.Group.List.Basic

/-!
# The expansion as a filtered product

The plans of a matrix without exclusions are numbered like the numerals of a mixed radix system:
the radices are the numbers of values of the axes, and the last axis is the least significant
digit. An exclusion only takes plans out of this sequence.
-/

namespace BuildMatrix.Matrix

def volume (axes : List Axis) : Nat := (axes.map fun axis => axis.values.length).prod

@[simp] theorem volume_nil : volume [] = 1 := rfl

@[simp] theorem volume_cons (axis : Axis) (axes : List Axis) :
    volume (axis :: axes) = axis.values.length * volume axes := by
  simp [volume]

theorem mul_volume_drop_dvd {axes : List Axis} {j : Nat} {axis : Axis} (h : axes[j]? = some axis) :
    volume (axes.drop (j + 1)) * axis.values.length ∣ volume axes := by
  induction axes generalizing j with
  | nil => cases h
  | cons first axes ih =>
    rw [volume_cons]
    cases j with
    | zero =>
      obtain rfl : first = axis := by simpa using h
      rw [List.drop_succ_cons, List.drop_zero, Nat.mul_comm]
    | succ j => exact (ih (by simpa using h)).mul_left _

/-! ### The numbering of the combinations -/

theorem length_combinations (axes : List Axis) : (combinations axes).length = volume axes := by
  induction axes with
  | nil => rfl
  | cons axis axes ih => simp [combinations, List.length_flatMap, ih]

/-- Blocks of equal length: the quotient of an index is the block, the remainder the place in it. -/
theorem getElem?_flatMap_map {α β γ : Type} (values : List α) (rests : List β) (f : α → β → γ)
    (k : Nat) :
    (values.flatMap fun value => rests.map (f value))[k]? =
      values[k / rests.length]?.bind fun value => rests[k % rests.length]?.map (f value) := by
  induction values generalizing k with
  | nil => simp
  | cons value values ih =>
    rw [List.flatMap_cons]
    by_cases hk : k < rests.length
    · rw [List.getElem?_append_left (by simpa using hk), List.getElem?_map,
        Nat.div_eq_of_lt hk, Nat.mod_eq_of_lt hk]
      rfl
    · have hle : rests.length ≤ k := Nat.le_of_not_lt hk
      rw [List.getElem?_append_right (by simpa using hle), List.length_map, ih,
        ← Nat.mod_eq_sub_mod hle]
      rcases Nat.eq_zero_or_pos rests.length with hzero | hpos
      · obtain rfl : rests = [] := List.eq_nil_of_length_eq_zero hzero
        simp
      · rw [Nat.div_eq_sub_div hpos hle, List.getElem?_cons_succ]

/--
The digit of an axis in the number of a combination is the index of the value that the combination
gives to this axis.
-/
theorem getElem?_combinations {axes : List Axis} {k j : Nat}
    {assignments : List (String × String)} {axis : Axis}
    (hk : (combinations axes)[k]? = some assignments) (hj : axes[j]? = some axis) :
    ∃ value, axis.values[k / volume (axes.drop (j + 1)) % axis.values.length]? = some value ∧
      assignments[j]? = some (axis.name, value) := by
  induction axes generalizing k j assignments with
  | nil => cases hj
  | cons first axes ih =>
    rw [combinations, getElem?_flatMap_map, length_combinations, Option.bind_eq_some_iff] at hk
    obtain ⟨value, hvalue, hchoice⟩ := hk
    obtain ⟨rest, hrest, rfl⟩ := Option.map_eq_some_iff.mp hchoice
    cases j with
    | zero =>
      obtain rfl : first = axis := by simpa using hj
      obtain ⟨hlt, -⟩ := List.getElem?_eq_some_iff.mp hvalue
      refine ⟨value, ?_, rfl⟩
      rw [List.drop_succ_cons, List.drop_zero, Nat.mod_eq_of_lt hlt]
      exact hvalue
    | succ j =>
      have hj' : axes[j]? = some axis := by simpa using hj
      obtain ⟨chosen, hchosen, hassigned⟩ := ih hrest hj'
      refine ⟨chosen, ?_, by simpa using hassigned⟩
      -- The digits of the later axes do not see the multiples of their volume.
      obtain ⟨earlier, hearlier⟩ := mul_volume_drop_dvd hj'
      rw [hearlier, Nat.mul_assoc, Nat.mod_mul_right_div_self,
        Nat.mod_mod_of_dvd _ (Nat.dvd_mul_right _ _)] at hchosen
      exact hchosen

/-! ### The plans -/

/-- The plans are the combinations of the axes, numbered as in a mixed radix system. -/
structure IsProduct (axes : List Axis) (plans : List Plan) : Prop where
  eq_nil : axes = [] → plans = []
  length_eq : axes ≠ [] → plans.length = volume axes
  names : ∀ plan ∈ plans, plan.assignments.map (·.1) = axes.map (·.name)
  digit : ∀ (k j : Nat) (plan : Plan) (axis : Axis), plans[k]? = some plan → axes[j]? = some axis →
    ∃ value, axis.values[k / volume (axes.drop (j + 1)) % axis.values.length]? = some value ∧
      plan.assignments[j]? = some (axis.name, value)

theorem expand_of_ne_nil {axes : List Axis} (h : axes ≠ []) (rules : List Exclusion) :
    expand ⟨axes, rules⟩ = ((combinations axes).map Plan.mk).filter fun plan =>
      !(rules.any fun rule => plan.agrees rule) := by
  rw [expand, if_neg (by simpa using h)]

theorem expand_without_rules {axes : List Axis} (h : axes ≠ []) :
    expand ⟨axes, []⟩ = (combinations axes).map Plan.mk := by
  rw [expand_of_ne_nil h]
  exact List.filter_eq_self.mpr fun _ _ => rfl

theorem isProduct_expand (axes : List Axis) : IsProduct axes (expand ⟨axes, []⟩) := by
  by_cases hnil : axes = []
  · subst hnil
    exact
      { eq_nil := fun _ => rfl
        length_eq := fun h => absurd rfl h
        names := fun _ h => by cases h
        digit := fun _ _ _ _ h => by cases h }
  rw [expand_without_rules hnil]
  refine ⟨fun h => absurd h hnil, fun _ => ?_, fun plan hplan => ?_, fun k j plan axis hk hj => ?_⟩
  case refine_1 => rw [List.length_map, length_combinations]
  case refine_2 =>
    obtain ⟨assignments, hmem, rfl⟩ := List.mem_map.mp hplan
    exact names_of_mem_combinations hmem
  case refine_3 =>
    rw [List.getElem?_map] at hk
    obtain ⟨assignments, hassignments, rfl⟩ := Option.map_eq_some_iff.mp hk
    exact getElem?_combinations hassignments hj

def Matches (plan : Plan) (rule : Exclusion) : Prop :=
  ∀ a ∈ rule, plan.get? a.1 = some a.2

instance (plan : Plan) (rule : Exclusion) : Decidable (Matches plan rule) :=
  inferInstanceAs (Decidable (∀ a ∈ rule, plan.get? a.1 = some a.2))

theorem agrees_eq (plan : Plan) (rule : Exclusion) :
    plan.agrees rule = decide (Matches plan rule) := by
  rw [Bool.eq_iff_iff, decide_eq_true_iff]
  simp only [Plan.agrees, List.all_eq_true, beq_iff_eq, Matches]

theorem expand_eq_filter (axes : List Axis) (rules : List Exclusion) :
    expand ⟨axes, rules⟩ =
      (expand ⟨axes, []⟩).filter fun plan => ¬∃ rule ∈ rules, Matches plan rule := by
  by_cases hnil : axes = []
  · subst hnil
    rfl
  rw [expand_of_ne_nil hnil, expand_without_rules hnil]
  refine List.filter_congr fun plan _ => ?_
  rw [Bool.eq_iff_iff, decide_eq_true_iff, Bool.not_eq_true', List.any_eq_false]
  simp only [agrees_eq, decide_eq_true_iff, not_exists, not_and]

/--
The expansion is the product of the axes in its order, without exactly the plans that match a rule.
So neither the order of the rules nor a repeated rule matters.
-/
theorem expand_filteredProduct (axes : List Axis) (rules : List Exclusion) :
    IsProduct axes (expand ⟨axes, []⟩) ∧
    expand ⟨axes, rules⟩ =
      (expand ⟨axes, []⟩).filter (fun plan => ¬∃ rule ∈ rules, Matches plan rule) ∧
    ∀ rules' : List Exclusion, (∀ rule, rule ∈ rules' ↔ rule ∈ rules) →
      expand ⟨axes, rules'⟩ = expand ⟨axes, rules⟩ := by
  refine ⟨isProduct_expand axes, expand_eq_filter axes rules, fun rules' hmem => ?_⟩
  rw [expand_eq_filter axes rules', expand_eq_filter axes rules]
  exact List.filter_congr fun plan _ => by simp only [hmem]

end BuildMatrix.Matrix
