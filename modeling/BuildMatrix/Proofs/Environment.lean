import BuildMatrix.Environment
import BuildMatrix.Workflow.Config

/-!
# Variables that are set one after the other

A variable that is set wins over an older value of its name and leaves the others alone. So an
environment that is set up in several steps can be told by the value that it gives to each name.
-/

namespace BuildMatrix

namespace Environment

theorem find?_insertEntry (name value : String) (entries : List (String × String)) :
    (insertEntry name value entries).find? (fun e => e.1 == name) = some (name, value) := by
  induction entries with
  | nil => simp [insertEntry]
  | cons entry rest ih =>
    rw [insertEntry]
    split
    · simp
    · next hne =>
      split
      · simp
      · rw [List.find?_cons_of_neg (by simpa using Ne.symm hne)]
        exact ih

theorem find?_insertEntry_of_ne {name other : String} (h : other ≠ name) (value : String)
    (entries : List (String × String)) :
    (insertEntry name value entries).find? (fun e => e.1 == other) =
      entries.find? fun e => e.1 == other := by
  induction entries with
  | nil => simp [insertEntry, h.symm]
  | cons entry rest ih =>
    rw [insertEntry]
    split
    · next heq => simp [← heq, h.symm]
    · split
      · simp [List.find?_cons, h.symm]
      · rw [List.find?_cons, List.find?_cons, ih]

section
variable (env : Environment) (name value : String)

theorem get?_set : (env.set name value).get? name = some value := by
  rw [get?, set, find?_insertEntry]
  rfl

theorem get?_set_of_ne {name other : String} (h : other ≠ name) :
    (env.set name value).get? other = env.get? other := by
  rw [get?, set, find?_insertEntry_of_ne h, get?]

theorem get?_ite_set (isOn : Bool) (other : String) :
    (if isOn then env.set name value else env).get? other =
      if other = name ∧ isOn then some value else env.get? other := by
  cases isOn with
  | false => simp
  | true =>
    by_cases h : other = name
    · subst h
      simp [get?_set]
    · simp [get?_set_of_ne env value h, h]

end

/-- The names of the entries increase, so each of them is there once. -/
def IsAscending (env : Environment) : Prop := env.entries.Pairwise fun a b => a.1 < b.1

theorem mem_insertEntry {name value : String} {entry : String × String}
    {entries : List (String × String)} (h : entry ∈ insertEntry name value entries) :
    entry = (name, value) ∨ entry ∈ entries := by
  induction entries with
  | nil => exact .inl (List.mem_singleton.mp h)
  | cons old rest ih =>
    rw [insertEntry] at h
    split at h
    · exact (List.mem_cons.mp h).imp_right (List.mem_cons_of_mem old)
    · split at h
      · exact List.mem_cons.mp h
      · cases List.mem_cons.mp h with
        | inl he => exact .inr (he ▸ List.mem_cons_self)
        | inr hmem => exact (ih hmem).imp_right (List.mem_cons_of_mem old)

theorem isAscending_set {env : Environment} (h : env.IsAscending) (name value : String) :
    (env.set name value).IsAscending := by
  unfold IsAscending set at *
  generalize env.entries = entries at h ⊢
  induction entries with
  | nil => exact List.pairwise_singleton _ _
  | cons old rest ih =>
    obtain ⟨hold, hrest⟩ := List.pairwise_cons.mp h
    rw [insertEntry]
    split
    · next heq =>
      subst heq
      exact List.pairwise_cons.mpr ⟨hold, hrest⟩
    · next hne =>
      split
      · next hlt =>
        refine List.pairwise_cons.mpr ⟨fun e he => ?_, h⟩
        cases List.mem_cons.mp he with
        | inl heq => exact heq ▸ hlt
        | inr hmem => exact String.lt_trans hlt (hold e hmem)
      · next hge =>
        refine List.pairwise_cons.mpr ⟨fun e he => ?_, ih hrest⟩
        cases mem_insertEntry he with
        | inl heq =>
          rw [heq, ← String.not_le]
          exact fun hle => hne (String.le_antisymm hle (String.not_lt.mp hge))
        | inr hmem => exact hold e hmem

theorem isAscending_ofList (entries : List (String × String)) : (ofList entries).IsAscending := by
  have hall (env : Environment) (h : env.IsAscending) : (env.setAll entries).IsAscending := by
    unfold setAll
    induction entries generalizing env with
    | nil => exact h
    | cons e rest ih => exact ih _ (isAscending_set h e.1 e.2)
  exact hall empty .nil

theorem mem_entries_iff {env : Environment} (h : env.IsAscending) {name value : String} :
    (name, value) ∈ env.entries ↔ env.get? name = some value := by
  unfold IsAscending at h
  unfold get?
  generalize env.entries = entries at h ⊢
  induction entries with
  | nil => simp
  | cons old rest ih =>
    obtain ⟨hold, hrest⟩ := List.pairwise_cons.mp h
    by_cases heq : old.1 = name
    · have hnot : (name, value) ∉ rest := by
        intro hmem
        have hlt := hold _ hmem
        rw [heq] at hlt
        exact String.lt_irrefl name hlt
      rw [List.find?_cons_of_pos (by simpa using heq), List.mem_cons, or_iff_left hnot,
        Option.map_some, Option.some_inj, ← heq]
      exact ⟨fun he => (congrArg Prod.snd he).symm, fun he => he ▸ rfl⟩
    · have hne : (name, value) ≠ old := fun he => heq (he ▸ rfl)
      rw [List.find?_cons_of_neg (by simpa using heq), List.mem_cons, or_iff_right hne, ih hrest]

end Environment

namespace EnvironmentConfig

variable (config : EnvironmentConfig)

/-- A switch that is on wins over a further variable of its name. -/
theorem get?_toEnvironment (name : String) :
    config.toEnvironment.get? name =
      if name = unattendedVariable ∧ config.unattended then some "true"
      else if name = skipNativeBuildVariable ∧ config.skipNativeBuild then some "1"
      else config.extra.get? name := by
  rw [toEnvironment, Environment.get?_ite_set, Environment.get?_ite_set]

theorem isAscending_toEnvironment (h : config.extra.IsAscending) :
    config.toEnvironment.IsAscending := by
  have hset {env : Environment} (h : env.IsAscending) (isOn : Bool) (name value : String) :
      (if isOn then env.set name value else env).IsAscending := by
    cases isOn with
    | false => exact h
    | true => exact Environment.isAscending_set h name value
  exact hset (hset h _ _ _) _ _ _

end EnvironmentConfig

end BuildMatrix
