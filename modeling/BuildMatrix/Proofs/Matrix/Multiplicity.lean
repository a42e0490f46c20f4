import BuildMatrix.Proofs.Matrix.Product
import Mathlib.Algebra.Group.Nat.Units
import Mathlib.Algebra.Group.Units.Basic
import Mathlib.Data.List.Count
import Mathlib.Data.List.Nodup

/-!
# How often a plan is in an expansion

A value that an axis lists several times is chosen several times. A plan is therefore in the
expansion as often as its values can be picked from the lists of the axes.
-/

namespace BuildMatrix.Matrix

/-- For each axis the number of times that it lists the value of the plan. -/
def listings (axes : List Axis) (plan : Plan) : List Nat :=
  List.zipWith (fun axis a => axis.values.count a.2) axes plan.assignments

/-- Each pick of the value in front goes with each choice of the rest. -/
theorem count_flatMap_cons (name value : String) (values : List String)
    (rest : List (String × String)) (rests : List (List (String × String))) :
    (values.flatMap fun v => rests.map fun r => (name, v) :: r).count ((name, value) :: rest) =
      values.count value * rests.count rest := by
  induction values with
  | nil => simp
  | cons v values ih =>
    rw [List.flatMap_cons, List.count_append, ih, List.count_cons, Nat.add_mul, Nat.add_comm]
    congr 1
    by_cases hv : v = value
    · subst hv
      have hinj : Function.Injective fun r : List (String × String) => (name, v) :: r :=
        fun _ _ h => (List.cons.inj h).2
      rw [List.count_map_of_injective rests _ hinj rest]
      simp
    · have hnone : (name, value) :: rest ∉ rests.map fun r => (name, v) :: r := by
        intro hmem
        obtain ⟨r, -, he⟩ := List.mem_map.mp hmem
        exact hv (Prod.mk.inj (List.cons.inj he).1).2
      rw [List.count_eq_zero_of_not_mem hnone]
      simp [hv]

theorem count_combinations {axes : List Axis} {assignments : List (String × String)}
    (h : assignments ∈ combinations axes) :
    (combinations axes).count assignments = (listings axes ⟨assignments⟩).prod := by
  induction axes generalizing assignments with
  | nil =>
    rw [mem_combinations_nil.mp h]
    rfl
  | cons axis axes ih =>
    obtain ⟨value, -, rest, hmem, rfl⟩ := mem_combinations_cons.mp h
    rw [combinations, count_flatMap_cons, ih hmem]
    simp [listings]

variable {matrix : Matrix} {plan : Plan}

/-- An exclusion takes a plan out altogether or leaves it as often as it is. -/
theorem count_expand (h : plan ∈ matrix.expand) :
    matrix.expand.count plan = (listings matrix.axes plan).prod := by
  have hmem := mem_combinations_of_mem_expand h
  have hinj : Function.Injective Plan.mk := fun _ _ he => Plan.mk.inj he
  rw [← count_combinations hmem, ← List.count_map_of_injective _ _ hinj]
  unfold expand at h ⊢
  split at h
  · cases h
  · next hne =>
    rw [if_neg hne]
    exact List.count_filter (List.mem_filter.mp h).2

theorem prod_eq_one_iff {counts : List Nat} : counts.prod = 1 ↔ ∀ n ∈ counts, n = 1 := by
  induction counts with
  | nil => simp
  | cons n counts ih => rw [List.prod_cons, mul_eq_one, ih, List.forall_mem_cons]

theorem nodup_expand_iff :
    matrix.expand.Nodup ↔ ∀ plan ∈ matrix.expand, ∀ n ∈ listings matrix.axes plan, n = 1 := by
  rw [List.nodup_iff_count_eq_one]
  refine forall₂_congr fun plan h => ?_
  rw [count_expand h]
  exact prod_eq_one_iff

theorem prod_le_one {counts : List Nat} (h : ∀ n ∈ counts, n ≤ 1) : counts.prod ≤ 1 := by
  induction counts with
  | nil => exact Nat.le_refl 1
  | cons n counts ih =>
    obtain ⟨hn, hcounts⟩ := List.forall_mem_cons.mp h
    rw [List.prod_cons]
    exact Nat.mul_le_mul hn (ih hcounts)

theorem nodup_expand (h : ∀ axis ∈ matrix.axes, axis.values.Nodup) : matrix.expand.Nodup := by
  apply List.nodup_iff_count_le_one.mpr
  intro plan
  by_cases hmem : plan ∈ matrix.expand
  · rw [count_expand hmem]
    apply prod_le_one
    intro n hn
    rw [listings, ← List.map_uncurry_zip_eq_zipWith] at hn
    obtain ⟨pair, hpair, rfl⟩ := List.mem_map.mp hn
    exact List.nodup_iff_count_le_one.mp (h pair.1 (List.of_mem_zip hpair).1) pair.2.2
  · rw [List.count_eq_zero_of_not_mem hmem]
    exact Nat.zero_le 1

theorem exists_mem_combinations {axes : List Axis} (h : ∀ axis ∈ axes, axis.values ≠ []) :
    ∃ assignments, assignments ∈ combinations axes := by
  apply List.exists_mem_of_ne_nil
  rw [← List.length_pos_iff, length_combinations]
  induction axes with
  | nil => exact Nat.one_pos
  | cons axis axes ih =>
    obtain ⟨haxis, haxes⟩ := List.forall_mem_cons.mp h
    rw [volume_cons]
    exact Nat.mul_pos (List.length_pos_iff.mpr haxis) (ih haxes)

/-- If no axis is empty, each value of an axis is in a combination. -/
theorem exists_mem_combinations_of_mem {axes : List Axis} {axis : Axis} {value : String}
    (h : ∀ axis ∈ axes, axis.values ≠ []) (haxis : axis ∈ axes) (hvalue : value ∈ axis.values) :
    ∃ assignments ∈ combinations axes, axis.values.count value ∈ listings axes ⟨assignments⟩ := by
  induction axes with
  | nil => cases haxis
  | cons first axes ih =>
    obtain ⟨hfirst, haxes⟩ := List.forall_mem_cons.mp h
    cases List.mem_cons.mp haxis with
    | inl he =>
      subst he
      obtain ⟨rest, hrest⟩ := exists_mem_combinations haxes
      refine ⟨(axis.name, value) :: rest, ?_, List.mem_cons_self⟩
      exact mem_combinations_cons.mpr ⟨value, hvalue, rest, hrest, rfl⟩
    | inr hmem =>
      obtain ⟨other, hother⟩ := List.exists_mem_of_ne_nil first.values hfirst
      obtain ⟨rest, hrest, hcount⟩ := ih haxes hmem
      refine ⟨(first.name, other) :: rest, ?_, List.mem_cons_of_mem _ hcount⟩
      exact mem_combinations_cons.mpr ⟨other, hother, rest, hrest, rfl⟩

/-- Without exclusions and empty axes, every value that is listed twice is in a plan. -/
theorem nodup_expand_free_iff {axes : List Axis} (h : ∀ axis ∈ axes, axis.values ≠ []) :
    (expand ⟨axes, []⟩).Nodup ↔ ∀ axis ∈ axes, axis.values.Nodup := by
  constructor
  · intro hnodup axis haxis
    apply List.nodup_iff_count_eq_one.mpr
    intro value hvalue
    obtain ⟨assignments, hmem, hcount⟩ := exists_mem_combinations_of_mem h haxis hvalue
    have hplan : ⟨assignments⟩ ∈ expand ⟨axes, []⟩ := by
      rw [expand_without_rules (List.ne_nil_of_mem haxis)]
      exact List.mem_map_of_mem hmem
    exact nodup_expand_iff.mp hnodup _ hplan _ hcount
  · intro haxes
    exact nodup_expand haxes

end BuildMatrix.Matrix
