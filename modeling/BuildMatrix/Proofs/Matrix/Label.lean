import BuildMatrix.Proofs.Matrix.Expansion
import BuildMatrix.Proofs.Text.Replacement

/-!
# Labels

A label is cut into the entries of its plan again if no name and no value has a comma with a blank
behind it. No separator arises where texts meet: the sign between a name and its value is neither of
the two, and a comma at the end of an entry is followed by the comma of the separator. The plans of
one matrix have the same names, so the entries tell their values.
-/

namespace BuildMatrix

/-- No text of the axis has the separator of labels in it. -/
structure Axis.IsSeparable (axis : Axis) : Prop where
  name : ¬", ".toList <:+: axis.name.toList
  values : ∀ value ∈ axis.values, ¬", ".toList <:+: value.toList

instance (axis : Axis) : Decidable axis.IsSeparable :=
  decidable_of_iff (¬", ".toList <:+: axis.name.toList ∧
      ∀ value ∈ axis.values, ¬", ".toList <:+: value.toList)
    ⟨fun h => ⟨h.1, h.2⟩, fun h => ⟨h.name, h.values⟩⟩

namespace Plan

def entry (a : String × String) : List Char := a.1.toList ++ '=' :: a.2.toList

theorem toList_label (plan : Plan) :
    plan.label.toList = ", ".toList.intercalate (plan.assignments.map entry) := by
  rw [label, Text.joinWith, String.toList_intercalate, List.map_map]
  congr 1
  apply List.map_congr_left
  intro a _
  simp [entry]

/-- The entries of a plan are what its label has between the separators. -/
theorem splitOn_label {plan : Plan} (hne : plan.assignments ≠ [])
    (h : ∀ a ∈ plan.assignments, ¬", ".toList <:+: a.1.toList ∧ ¬", ".toList <:+: a.2.toList) :
    Text.splitOn ", ".toList plan.label.toList = plan.assignments.map entry := by
  have hsep : ", ".toList = ',' :: [' '] := rfl
  rw [hsep] at h
  rw [toList_label, hsep]
  apply Text.splitOn_intercalate (by decide) (by simpa using hne)
  intro part hpart
  obtain ⟨a, ha, rfl⟩ := List.mem_map.mp hpart
  exact Text.not_infix_append_cons (by decide) (h a ha).1 (h a ha).2

/-- The entries tell the values if the names are known. -/
theorem eq_of_entries {as bs : List (String × String)} (hnames : as.map (·.1) = bs.map (·.1))
    (hentries : as.map entry = bs.map entry) : as = bs := by
  induction as generalizing bs with
  | nil =>
    cases bs with
    | nil => rfl
    | cons b bs => cases hnames
  | cons a as ih =>
    cases bs with
    | nil => cases hnames
    | cons b bs =>
      obtain ⟨hfirst, hnames⟩ := List.cons.inj hnames
      obtain ⟨hentry, hentries⟩ := List.cons.inj hentries
      have hname : a.1 = b.1 := hfirst
      have hvalue : a.2 = b.2 := by
        rw [entry, entry, hname, List.append_cancel_left_eq] at hentry
        exact String.toList_inj.mp (List.cons.inj hentry).2
      rw [Prod.ext hname hvalue, ih hnames hentries]

end Plan

namespace Matrix

variable {matrix : Matrix} {p q : Plan}

theorem assignments_ne_nil_of_mem_expand (h : p ∈ matrix.expand) : p.assignments ≠ [] := by
  intro hnil
  have hnames := names_of_mem_combinations (mem_combinations_of_mem_expand h)
  rw [hnil] at hnames
  exact axes_ne_nil_of_mem_expand h (List.map_eq_nil_iff.mp hnames.symm)

theorem splitOn_label_of_mem_expand (h : ∀ axis ∈ matrix.axes, axis.IsSeparable)
    (hp : p ∈ matrix.expand) :
    Text.splitOn ", ".toList p.label.toList = p.assignments.map Plan.entry := by
  apply Plan.splitOn_label (assignments_ne_nil_of_mem_expand hp)
  intro a ha
  obtain ⟨axis, haxis, hname, hvalue⟩ :=
    exists_axis_of_mem_combinations (mem_combinations_of_mem_expand hp) ha
  exact ⟨hname ▸ (h axis haxis).name, (h axis haxis).values a.2 hvalue⟩

theorem eq_of_label_eq (h : ∀ axis ∈ matrix.axes, axis.IsSeparable) (hp : p ∈ matrix.expand)
    (hq : q ∈ matrix.expand) (hlabel : p.label = q.label) : p = q := by
  have hnames : p.assignments.map (·.1) = q.assignments.map (·.1) := by
    rw [names_of_mem_combinations (mem_combinations_of_mem_expand hp),
      names_of_mem_combinations (mem_combinations_of_mem_expand hq)]
  have hentries : p.assignments.map Plan.entry = q.assignments.map Plan.entry := by
    rw [← splitOn_label_of_mem_expand h hp, ← splitOn_label_of_mem_expand h hq, hlabel]
  exact congrArg Plan.mk (Plan.eq_of_entries hnames hentries)

/-- A separator within two values can be taken for the one between them. -/
example :
    let matrix : Matrix := ⟨[⟨"a", ["1", "1, b=2"]⟩, ⟨"b", ["3", "2, b=3"]⟩], []⟩
    (⟨[("a", "1"), ("b", "2, b=3")]⟩ : Plan) ∈ matrix.expand ∧
      (⟨[("a", "1, b=2"), ("b", "3")]⟩ : Plan) ∈ matrix.expand ∧
      (⟨[("a", "1"), ("b", "2, b=3")]⟩ : Plan).label =
        (⟨[("a", "1, b=2"), ("b", "3")]⟩ : Plan).label := by
  decide +kernel

end Matrix

end BuildMatrix
