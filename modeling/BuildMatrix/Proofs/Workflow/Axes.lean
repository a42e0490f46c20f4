import BuildMatrix.Proofs.Matrix.Multiplicity
import BuildMatrix.Proofs.Workflow.Validation

/-!
# The axes of a configuration

The axes of a valid configuration are the entries of its matrix other than the exclusions. Each item
of an entry is a scalar, and its text is the value that the axis has at its place.
-/

namespace BuildMatrix.WorkflowConfig

open Yaml (Value)

theorem forall₂_of_mapM {ε α β : Type} {f : α → Except ε β} {as : List α} {bs : List β}
    (h : as.mapM f = .ok bs) : List.Forall₂ (fun a b => f a = .ok b) as bs := by
  induction as generalizing bs with
  | nil =>
    cases h
    exact .nil
  | cons a as ih =>
    simp only [List.mapM_cons, bind_eq_ok] at h
    obtain ⟨b, hb, rest, hrest, he⟩ := h
    cases he
    exact .cons hb (ih hrest)

/-- The name and the items of an entry of the matrix that lists the values of an axis. -/
def axisItems? (entry : Value × Value) : Option (String × List Value) :=
  match entry.1.text? with
  | none => none
  | some name =>
    if name == excludeName then none
    else match entry.2 with
      | .sequence items => some (name, items)
      | _ => none

def axisItems (config : WorkflowConfig) : List (String × List Value) :=
  config.matrix.filterMap axisItems?

/-- For each axis the number of its items that are written as the value of the plan. -/
def listings (config : WorkflowConfig) (plan : Plan) : List Nat :=
  List.zipWith (fun listed a => (listed.2.map scalarText?).count (some a.2)) config.axisItems
    plan.assignments

/-- The values of an axis are the texts of the items that are listed for it. -/
structure IsRead (listed : String × List Value) (axis : Axis) : Prop where
  name : axis.name = listed.1
  values : listed.2.map scalarText? = axis.values.map some

variable {config : WorkflowConfig}

theorem scalarText?_of_axisValue {axis : String} {item : Value} {text : String}
    (h : config.axisValue axis item = .ok text) : scalarText? item = some text := by
  unfold axisValue at h
  cases hitem : scalarText? item with
  | none =>
    simp only [hitem] at h
    split at h
    · split at h <;> cases h
    · cases h
  | some found =>
    simp only [hitem] at h
    split at h
    · split at h
      · cases h
      · exact congrArg some (Except.ok.inj h)
    · exact congrArg some (Except.ok.inj h)

theorem map_scalarText?_of_mapM {axis : String} {items : List Value} {values : List String}
    (h : items.mapM (config.axisValue axis) = .ok values) :
    items.map scalarText? = values.map some := by
  rw [← List.forall₂_eq_eq_eq, List.forall₂_map_left_iff, List.forall₂_map_right_iff]
  exact (forall₂_of_mapM h).imp fun _ _ => scalarText?_of_axisValue

/-- An entry of the matrix is the exclusions or declares an axis. -/
theorem isRead_of_axis? {entry : Value × Value} {axis? : Option Axis}
    (h : config.axis? entry = .ok axis?) : Option.Rel IsRead (axisItems? entry) axis? := by
  unfold WorkflowConfig.axis? at h
  unfold axisItems?
  cases hname : entry.1.text? with
  | none =>
    rw [hname] at h
    cases h
  | some name =>
    simp only [hname] at h ⊢
    split at h
    · next hexclude =>
      cases h
      rw [if_pos hexclude]
      exact .none
    · next hexclude =>
      rw [if_neg hexclude]
      split at h
      · cases h
      · cases hitems : entry.2 with
        | sequence items =>
          simp only [hitems] at h
          obtain ⟨values, hvalues, he⟩ := bind_eq_ok.mp h
          cases he
          exact .some ⟨rfl, map_scalarText?_of_mapM hvalues⟩
        | _ =>
          simp only [hitems] at h
          cases h

theorem forall₂_filterMap {α β γ : Type} {R : β → γ → Prop} {f : α → Option β} {as : List α}
    {found : List (Option γ)} (h : List.Forall₂ (fun a c? => Option.Rel R (f a) c?) as found) :
    List.Forall₂ R (as.filterMap f) (found.filterMap id) := by
  induction h with
  | nil => exact .nil
  | @cons a c? as found hhead _ ih =>
    generalize hb : f a = b? at hhead
    cases hhead with
    | none =>
      rw [List.filterMap_cons_none hb]
      exact ih
    | some hr =>
      rw [List.filterMap_cons_some hb]
      exact .cons hr ih

theorem isRead_of_axes {axes : List Axis} (h : config.axes = .ok axes) :
    List.Forall₂ IsRead config.axisItems axes := by
  obtain ⟨found, hfound, he⟩ := bind_eq_ok.mp h
  cases he
  apply forall₂_filterMap
  exact (forall₂_of_mapM hfound).imp fun _ _ => isRead_of_axis?

/-- Two items that are written alike are one value of the axis that lists them. -/
theorem IsRead.count {listed : String × List Value} {axis : Axis} (h : IsRead listed axis)
    (value : String) :
    (listed.2.map scalarText?).count (some value) = axis.values.count value := by
  rw [h.values]
  exact List.count_map_of_injective axis.values some (fun _ _ => Option.some.inj) value

theorem IsRead.nodup_iff {listed : String × List Value} {axis : Axis} (h : IsRead listed axis) :
    (listed.2.map scalarText?).Nodup ↔ axis.values.Nodup := by
  rw [h.values]
  exact List.nodup_map_iff fun _ _ => Option.some.inj

theorem IsRead.length_eq {listed : String × List Value} {axis : Axis} (h : IsRead listed axis) :
    axis.values.length = listed.2.length := by
  simpa using (congrArg List.length h.values).symm

theorem volume_of_axes {axes : List Axis} (h : config.axes = .ok axes) :
    Matrix.volume axes = (config.axisItems.map fun listed => listed.2.length).prod := by
  rw [Matrix.volume]
  congr 1
  rw [← List.forall₂_eq_eq_eq, List.forall₂_map_left_iff, List.forall₂_map_right_iff]
  exact (isRead_of_axes h).flip.imp fun _ _ hread => hread.length_eq

theorem listings_of_axes {axes : List Axis} (h : config.axes = .ok axes) (plan : Plan) :
    config.listings plan = Matrix.listings axes plan := by
  have hread := isRead_of_axes h
  clear h
  unfold listings Matrix.listings
  generalize config.axisItems = lists at hread ⊢
  generalize plan.assignments = assignments
  induction hread generalizing assignments with
  | nil => rfl
  | cons hhead _ ih =>
    cases assignments with
    | nil => rfl
    | cons a assignments => rw [List.zipWith_cons_cons, List.zipWith_cons_cons, hhead.count, ih]

end BuildMatrix.WorkflowConfig
