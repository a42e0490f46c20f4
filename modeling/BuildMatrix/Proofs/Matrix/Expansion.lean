import BuildMatrix.Matrix.Expansion

/-!
# The plans of a matrix

A plan gives a value to each axis of its matrix, in the order of the axes.
-/

namespace BuildMatrix.Matrix

section
variable {axis : Axis} {axes : List Axis} {assignments : List (String × String)}

theorem mem_combinations_nil : assignments ∈ combinations [] ↔ assignments = [] :=
  List.mem_singleton

theorem mem_combinations_cons : assignments ∈ combinations (axis :: axes) ↔
    ∃ value ∈ axis.values, ∃ rest ∈ combinations axes, (axis.name, value) :: rest = assignments := by
  simp only [combinations, List.mem_flatMap, List.mem_map]

end

theorem names_of_mem_combinations {axes : List Axis} {assignments : List (String × String)}
    (h : assignments ∈ combinations axes) :
    assignments.map (·.1) = axes.map (·.name) := by
  induction axes generalizing assignments with
  | nil =>
    rw [mem_combinations_nil.mp h]
    rfl
  | cons axis axes ih =>
    obtain ⟨value, -, rest, hmem, rfl⟩ := mem_combinations_cons.mp h
    rw [List.map_cons, List.map_cons, ih hmem]

theorem exists_axis_of_mem_combinations {axes : List Axis} {assignments : List (String × String)}
    {a : String × String} (h : assignments ∈ combinations axes) (ha : a ∈ assignments) :
    ∃ axis ∈ axes, axis.name = a.1 ∧ a.2 ∈ axis.values := by
  induction axes generalizing assignments with
  | nil =>
    rw [mem_combinations_nil.mp h] at ha
    cases ha
  | cons axis axes ih =>
    obtain ⟨value, hvalue, rest, hmem, rfl⟩ := mem_combinations_cons.mp h
    cases List.mem_cons.mp ha with
    | inl hfirst => exact ⟨axis, by simp, by rw [hfirst], by rwa [hfirst]⟩
    | inr hlater =>
      obtain ⟨other, hother, hgives⟩ := ih hmem hlater
      exact ⟨other, List.mem_cons_of_mem axis hother, hgives⟩

variable {matrix : Matrix} {plan : Plan}

theorem mem_combinations_of_mem_expand (h : plan ∈ matrix.expand) :
    plan.assignments ∈ combinations matrix.axes := by
  unfold expand at h
  split at h
  · cases h
  · obtain ⟨assignments, hmem, rfl⟩ := List.mem_map.mp (List.mem_filter.mp h).1
    exact hmem

theorem axes_ne_nil_of_mem_expand (h : plan ∈ matrix.expand) : matrix.axes ≠ [] := by
  intro hnil
  rw [expand, hnil] at h
  cases h

theorem get?_of_mem_expand {axis : String} (h : plan ∈ matrix.expand)
    (haxis : axis ∈ matrix.axes.map (·.name)) : ∃ value, plan.get? axis = some value := by
  rw [← names_of_mem_combinations (mem_combinations_of_mem_expand h)] at haxis
  obtain ⟨assignment, hmem, hname⟩ := List.mem_map.mp haxis
  have hfound : (plan.assignments.find? fun a => a.1 == axis).isSome :=
    List.find?_isSome.mpr ⟨assignment, hmem, beq_iff_eq.mpr hname⟩
  obtain ⟨found, hfind⟩ := Option.isSome_iff_exists.mp hfound
  exact ⟨found.2, by rw [Plan.get?, hfind]; rfl⟩

end BuildMatrix.Matrix
