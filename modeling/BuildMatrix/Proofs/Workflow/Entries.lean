import BuildMatrix.Proofs.Workflow.Axes
import BuildMatrix.Proofs.Workflow.Reading

/-!
# The entries of a matrix

The matrix of a configuration is read twice. The axes are the entries whose keys do not read
`exclude`, and tags do not matter for what a key reads. The exclusions are the entry whose key is
this very text. So a tagged key that reads `exclude` is overlooked by both, and two tagged keys
that read alike declare two axes of one name. Without tags the readings share out the entries.
-/

namespace BuildMatrix

open Yaml (Value KeysDiffer)

theorem Yaml.Value.same_string_iff {value : Value} {text : String} :
    value.same (.string text) ↔ value = .string text := by
  cases value with
  | string s => simp [same]
  | _ => simp [same]

namespace WorkflowConfig

def IsAxis (config : WorkflowConfig) (entry : Value × Value) : Prop :=
  ∃ axis, config.axis? entry = .ok (some axis)

def IsExclusions (config : WorkflowConfig) (entry : Value × Value) : Prop :=
  config.matrix.find? (fun other => other.1.same (.string excludeName)) = some entry

def rulesIn (config : WorkflowConfig) (list : Value) : Except ConfigError (List Exclusion) :=
  match list.untagged with
  | .sequence entries => entries.mapM config.exclusion
  | _ => .error .exclusionsNotList

/-- Whether a key reads `exclude` and is not this text, but a tagged one. -/
def isOverlooked (entry : Value × Value) : Bool :=
  entry.1.text? == some excludeName && !entry.1.same (.string excludeName)

def axisEntries (config : WorkflowConfig) : List (Value × Value) :=
  config.matrix.filter fun entry => entry.1.text? != some excludeName

def withoutOverlooked (config : WorkflowConfig) : WorkflowConfig :=
  { config with matrix := config.matrix.filter fun entry => !isOverlooked entry }

/-- Each entry is an axis with a name of its own or the exclusions, and these are respected. -/
structure ReadersAgree (config : WorkflowConfig) (workflow : Workflow) : Prop where
  read : ∀ entry ∈ config.matrix,
    config.IsAxis entry ∧ ¬config.IsExclusions entry ∨
      ¬config.IsAxis entry ∧ config.IsExclusions entry ∧
        config.rulesIn entry.2 = .ok workflow.matrix.exclusions
  distinct : (workflow.matrix.axes.map (·.name)).Nodup
  respected : ∀ entry ∈ config.matrix, entry.1.text? = some excludeName →
    ∀ rules, config.rulesIn entry.2 = .ok rules → ∀ rule ∈ rules, ∀ plan ∈ workflow.plans,
      ¬Matrix.Matches plan rule

variable {config : WorkflowConfig} {entry : Value × Value} {axis : Axis}

/-! ### The axes -/

theorem axis?_of_exclude (h : entry.1.text? = some excludeName) :
    config.axis? entry = .ok none := by
  simp only [axis?, h, beq_self_eq_true, if_true]

/-- A key that is read as a name of an axis has this name as its text. -/
theorem axis?_cases {found : Option Axis} (h : config.axis? entry = .ok found) :
    found = none ∧ entry.1.text? = some excludeName ∨
      ∃ axis, found = some axis ∧ entry.1.text? = some axis.name ∧ axis.name ≠ excludeName := by
  unfold axis? at h
  split at h
  · cases h
  · next name hname =>
    split at h
    · next hexclude =>
      cases h
      exact .inl ⟨rfl, hname.trans (congrArg some (beq_iff_eq.mp hexclude))⟩
    · next hexclude =>
      split at h
      · cases h
      split at h
      · obtain ⟨values, -, he⟩ := bind_eq_ok.mp h
        cases he
        exact .inr ⟨_, rfl, hname, by simpa using hexclude⟩
      · cases h

theorem exists_of_mapM {ε α β : Type} {f : α → Except ε β} {as : List α} {bs : List β} {a : α}
    (h : as.mapM f = .ok bs) (ha : a ∈ as) : ∃ b, f a = .ok b := by
  induction as generalizing bs with
  | nil => cases ha
  | cons first as ih =>
    simp only [List.mapM_cons, bind_eq_ok] at h
    obtain ⟨b, hb, rest, hrest, -⟩ := h
    cases List.mem_cons.mp ha with
    | inl he => exact ⟨b, he ▸ hb⟩
    | inr hmem => exact ih hrest hmem

theorem exists_axis? {axes : List Axis} (h : config.axes = .ok axes)
    (hmem : entry ∈ config.matrix) : ∃ found, config.axis? entry = .ok found := by
  obtain ⟨found, hfound, -⟩ := bind_eq_ok.mp h
  exact exists_of_mapM hfound hmem

theorem isAxis_iff {found : Option Axis} (h : config.axis? entry = .ok found) :
    config.IsAxis entry ↔ entry.1.text? ≠ some excludeName := by
  cases axis?_cases h with
  | inl hnone =>
    obtain ⟨rfl, htext⟩ := hnone
    refine iff_of_false ?_ (not_not_intro htext)
    intro haxis
    obtain ⟨axis, haxis⟩ := haxis
    cases h.symm.trans haxis
  | inr hsome =>
    obtain ⟨axis, rfl, htext, hname⟩ := hsome
    refine iff_of_true ⟨axis, h⟩ ?_
    rw [htext]
    exact fun he => hname (Option.some.inj he)

theorem axisEntries_axes {axes : List Axis} (h : config.axes = .ok axes) :
    List.Forall₂ (fun entry axis => config.axis? entry = .ok (some axis)) config.axisEntries
      axes := by
  obtain ⟨found, hfound, he⟩ := bind_eq_ok.mp h
  cases he
  rw [axisEntries, ← List.filterMap_eq_filter]
  apply forall₂_filterMap
  apply (forall₂_of_mapM hfound).imp
  intro entry axis? haxis
  cases axis?_cases haxis with
  | inl hnone =>
    obtain ⟨rfl, htext⟩ := hnone
    rw [Option.guard, if_neg (by simp [htext])]
    exact .none
  | inr hsome =>
    obtain ⟨axis, rfl, htext, hname⟩ := hsome
    rw [Option.guard, if_pos (by simpa [htext] using hname)]
    exact .some haxis

theorem map_text?_axisEntries {axes : List Axis} (h : config.axes = .ok axes) :
    config.axisEntries.map (·.1.text?) = axes.map fun axis => some axis.name := by
  rw [← List.forall₂_eq_eq_eq, List.forall₂_map_left_iff, List.forall₂_map_right_iff]
  apply (axisEntries_axes h).imp
  intro entry axis haxis
  cases axis?_cases haxis with
  | inl hnone => cases hnone.1
  | inr hsome =>
    obtain ⟨other, hother, htext, -⟩ := hsome
    rw [htext, Option.some.inj hother]

theorem nodup_names_iff {axes : List Axis} (h : config.axes = .ok axes) :
    (axes.map (·.name)).Nodup ↔ (config.axisEntries.map (·.1.text?)).Nodup := by
  have hsome : axes.map (fun axis => some axis.name) = (axes.map (·.name)).map some := by
    rw [List.map_map]
    rfl
  rw [map_text?_axisEntries h, hsome, List.nodup_map_iff fun _ _ => Option.some.inj]

/-! ### The exclusions -/

theorem find?_eq_some_iff_of_pairwise {α : Type} {R : α → α → Prop} {isKind : α → Bool}
    {as : List α} {a : α} (h : as.Pairwise R) (hR : ∀ b c, isKind b → isKind c → ¬R b c) :
    as.find? isKind = some a ↔ a ∈ as ∧ isKind a := by
  constructor
  · intro hfound
    exact ⟨List.mem_of_find?_eq_some hfound, List.find?_some hfound⟩
  · intro hmem
    obtain ⟨hmem, hkind⟩ := hmem
    induction h with
    | nil => cases hmem
    | @cons b as hb _ ih =>
      cases List.mem_cons.mp hmem with
      | inl he => rw [he] at hkind ⊢; exact List.find?_cons_of_pos hkind
      | inr hrest =>
        have hother : ¬isKind b := fun hbkind => hR b a hbkind hkind (hb a hrest)
        rw [List.find?_cons_of_neg hother]
        exact ih hrest

theorem isExclusions_iff (hkeys : KeysDiffer config.matrix) (hmem : entry ∈ config.matrix) :
    config.IsExclusions entry ↔ entry.1 = .string excludeName := by
  rw [IsExclusions, find?_eq_some_iff_of_pairwise hkeys, Value.same_string_iff]
  · exact and_iff_right hmem
  · intro a b ha hb hdiffer
    rw [Value.same_string_iff.mp hb] at hdiffer
    rw [hdiffer] at ha
    cases ha

theorem exclusions_of_isExclusions (h : config.IsExclusions entry) :
    config.exclusions = config.rulesIn entry.2 := by
  rw [exclusions, exclusionList?, h]
  rfl

theorem exclusions_of_none (h : ∀ entry, ¬config.IsExclusions entry) :
    config.exclusions = .ok [] := by
  have hnone : config.matrix.find? (fun other => other.1.same (.string excludeName)) = none := by
    rw [Option.eq_none_iff_forall_ne_some]
    exact h
  rw [exclusions, exclusionList?, hnone]
  rfl

/-! ### Overlooked entries -/

section
variable {ε α β : Type} {f : α → Except ε (Option β)}

def readSome (f : α → Except ε (Option β)) (as : List α) : Except ε (List β) := do
  pure ((← as.mapM f).filterMap id)

theorem readSome_cons (a : α) (as : List α) :
    readSome f (a :: as) =
      f a >>= fun found => readSome f as >>= fun rest => pure (found.toList ++ rest) := by
  rw [readSome, readSome, List.mapM_cons]
  cases f a with
  | error e => rfl
  | ok found =>
    cases as.mapM f with
    | error e => rfl
    | ok rest =>
      cases found with
      | none => rfl
      | some b => rfl

theorem readSome_filter {isLeft : α → Bool} {as : List α}
    (h : ∀ a ∈ as, isLeft a = false → f a = .ok none) :
    readSome f (as.filter isLeft) = readSome f as := by
  induction as with
  | nil => rfl
  | cons a as ih =>
    obtain ⟨ha, has⟩ := List.forall_mem_cons.mp h
    by_cases hleft : isLeft a
    · rw [List.filter_cons_of_pos hleft, readSome_cons, readSome_cons, ih has]
    · rw [List.filter_cons_of_neg hleft, readSome_cons, ha (by simpa using hleft), ih has]
      cases readSome f as with
      | error e => rfl
      | ok rest => rfl

end

theorem axes_withoutOverlooked (config : WorkflowConfig) :
    config.withoutOverlooked.axes = config.axes := by
  apply readSome_filter
  intro entry _ hgone
  apply axis?_of_exclude
  have hoverlooked : isOverlooked entry = true := by simpa using hgone
  rw [isOverlooked, Bool.and_eq_true] at hoverlooked
  exact beq_iff_eq.mp hoverlooked.1

theorem exclusions_withoutOverlooked (config : WorkflowConfig) :
    config.withoutOverlooked.exclusions = config.exclusions := by
  have hlist : config.withoutOverlooked.exclusionList? = config.exclusionList? := by
    rw [exclusionList?, exclusionList?, withoutOverlooked, List.find?_filter]
    congr 2
    funext entry
    cases hkey : entry.1.same (.string excludeName) with
    | true => simp [isOverlooked, hkey]
    | false => simp
  unfold exclusions
  rw [hlist]
  rfl

theorem toWorkflow_withoutOverlooked (config : WorkflowConfig) (home : String) :
    config.withoutOverlooked.toWorkflow home = config.toWorkflow home := by
  have hvalidate : config.withoutOverlooked.validate = config.validate := by
    unfold validate
    rw [axes_withoutOverlooked, exclusions_withoutOverlooked]
    rfl
  unfold toWorkflow
  rw [hvalidate, axes_withoutOverlooked, exclusions_withoutOverlooked]
  rfl

/-! ### Agreement -/

/-- How the entries of a matrix are read, and when the two readings agree. -/
structure ReadsEntries (config : WorkflowConfig) (workflow : Workflow) : Prop where
  axis_iff : ∀ entry ∈ config.matrix,
    config.IsAxis entry ↔ entry.1.text? ≠ some excludeName
  exclusions_iff : ∀ entry ∈ config.matrix,
    config.IsExclusions entry ↔ entry.1 = .string excludeName
  /-- One axis for each entry that is read as an axis. -/
  axes : List.Forall₂ (fun entry axis => config.axis? entry = .ok (some axis)) config.axisEntries
    workflow.matrix.axes
  rules : ∀ entry, config.IsExclusions entry →
    config.rulesIn entry.2 = .ok workflow.matrix.exclusions
  no_rules : (∀ entry, ¬config.IsExclusions entry) → workflow.matrix.exclusions = []
  respected : ∀ rule ∈ workflow.matrix.exclusions, ∀ plan ∈ workflow.plans,
    ¬Matrix.Matches plan rule
  /-- The other entries have tagged keys that read `exclude`; they might as well not be there. -/
  overlooked : ∀ home, config.withoutOverlooked.toWorkflow home = config.toWorkflow home
  agree_iff : config.ReadersAgree workflow ↔
    (∀ entry ∈ config.matrix, isOverlooked entry = false) ∧
      (config.axisEntries.map (·.1.text?)).Nodup
  /-- Plain texts are read alike. -/
  agree_of_plain : (∀ entry ∈ config.matrix, ∃ text, entry.1 = .string text) →
    config.ReadersAgree workflow

theorem isOverlooked_eq_false_iff : isOverlooked entry = false ↔
    (entry.1.text? = some excludeName → entry.1 = .string excludeName) := by
  rw [← Value.same_string_iff]
  simp [isOverlooked]

theorem not_matches_of_mem_plans {workflow : Workflow} {plan : Plan} {rule : Exclusion}
    (hrule : rule ∈ workflow.matrix.exclusions) (hplan : plan ∈ workflow.plans) :
    ¬Matrix.Matches plan rule := by
  intro hmatches
  have hplan : plan ∈ Matrix.expand ⟨workflow.matrix.axes, workflow.matrix.exclusions⟩ := hplan
  rw [Matrix.expand_eq_filter, List.mem_filter, decide_eq_true_iff] at hplan
  exact hplan.2 ⟨rule, hrule, hmatches⟩

section
variable {workflow : Workflow}

theorem readersAgree_iff (hkeys : KeysDiffer config.matrix)
    (haxes : config.axes = .ok workflow.matrix.axes)
    (hexclusions : config.exclusions = .ok workflow.matrix.exclusions) :
    config.ReadersAgree workflow ↔ (∀ entry ∈ config.matrix, isOverlooked entry = false) ∧
      (config.axisEntries.map (·.1.text?)).Nodup := by
  rw [← nodup_names_iff haxes]
  constructor
  · intro hagree
    refine ⟨fun entry hmem => isOverlooked_eq_false_iff.mpr fun htext => ?_, hagree.distinct⟩
    obtain ⟨found, hfound⟩ := exists_axis? haxes hmem
    cases hagree.read entry hmem with
    | inl haxis => exact absurd htext ((isAxis_iff hfound).mp haxis.1)
    | inr hlist => exact (isExclusions_iff hkeys hmem).mp hlist.2.1
  · intro h
    obtain ⟨hseen, hdistinct⟩ := h
    have hlist {entry : Value × Value} (hmem : entry ∈ config.matrix)
        (htext : entry.1.text? = some excludeName) :
        config.IsExclusions entry ∧ config.rulesIn entry.2 = .ok workflow.matrix.exclusions := by
      have hkey := isOverlooked_eq_false_iff.mp (hseen entry hmem) htext
      have hexcludes := (isExclusions_iff hkeys hmem).mpr hkey
      exact ⟨hexcludes, (exclusions_of_isExclusions hexcludes).symm.trans hexclusions⟩
    constructor
    case read =>
      intro entry hmem
      obtain ⟨found, hfound⟩ := exists_axis? haxes hmem
      by_cases htext : entry.1.text? = some excludeName
      · exact .inr ⟨fun haxis => (isAxis_iff hfound).mp haxis htext, hlist hmem htext⟩
      · refine .inl ⟨(isAxis_iff hfound).mpr htext, fun hexcludes => htext ?_⟩
        rw [(isExclusions_iff hkeys hmem).mp hexcludes]
        rfl
    case distinct => exact hdistinct
    case respected =>
      intro entry hmem htext rules hrules rule hrule plan hplan
      obtain rfl := Except.ok.inj ((hlist hmem htext).2.symm.trans hrules)
      exact not_matches_of_mem_plans hrule hplan

/-- Plain texts that differ as keys differ as names. -/
theorem nodup_of_plain (hkeys : KeysDiffer config.matrix)
    (hplain : ∀ entry ∈ config.matrix, ∃ text, entry.1 = .string text) :
    (config.axisEntries.map (·.1.text?)).Nodup := by
  rw [List.Nodup, List.pairwise_map]
  apply (hkeys.filter _).imp_of_mem
  intro a b ha hb hdiffer
  obtain ⟨s, hs⟩ := hplain a (List.mem_filter.mp ha).1
  obtain ⟨t, ht⟩ := hplain b (List.mem_filter.mp hb).1
  intro htexts
  rw [hs, ht] at htexts hdiffer
  obtain rfl : s = t := Option.some.inj htexts
  rw [Value.same_string_iff.mpr rfl] at hdiffer
  cases hdiffer

end

/--
A valid configuration describes a workflow, and each entry of its matrix is an axis of it, or lists
its exclusions, or is overlooked. The readings of the matrix agree exactly if no entry is overlooked
and the keys of the axes read differently, in particular if all keys are plain texts.
-/
theorem reads_entries (hkeys : KeysDiffer config.matrix) (hvalid : config.validate = .ok ())
    (home : String) :
    ∃ workflow, config.toWorkflow home = .ok workflow ∧ config.ReadsEntries workflow := by
  obtain ⟨axes, exclusions, filter, hreads⟩ := reads_of_validate hvalid
  refine ⟨_, toWorkflow_eq_ok hvalid hreads home, ?_⟩
  constructor
  case axis_iff =>
    intro entry hmem
    obtain ⟨found, hfound⟩ := exists_axis? hreads.readsAxes hmem
    exact isAxis_iff hfound
  case exclusions_iff => exact fun entry hmem => isExclusions_iff hkeys hmem
  case axes => exact axisEntries_axes hreads.readsAxes
  case rules =>
    intro entry hexcludes
    exact (exclusions_of_isExclusions hexcludes).symm.trans hreads.readsExclusions
  case no_rules =>
    intro hnone
    exact Except.ok.inj (hreads.readsExclusions.symm.trans (exclusions_of_none hnone))
  case respected => exact fun rule hrule plan hplan => not_matches_of_mem_plans hrule hplan
  case overlooked => exact toWorkflow_withoutOverlooked config
  case agree_iff => exact readersAgree_iff hkeys hreads.readsAxes hreads.readsExclusions
  case agree_of_plain =>
    intro hplain
    apply (readersAgree_iff hkeys hreads.readsAxes hreads.readsExclusions).mpr
    constructor
    · intro entry hmem
      obtain ⟨text, hkey⟩ := hplain entry hmem
      rw [isOverlooked_eq_false_iff, hkey]
      exact fun htext => congrArg Value.string (Option.some.inj htext)
    · exact nodup_of_plain hkeys hplain

def taggedRule : Value × Value :=
  (.tagged "x" (.string "exclude"),
    .sequence [.mapping [(.string "python-version", .string "3.8")]])

/-- Two axes that read alike, and exclusions under a plain and under a tagged key. -/
def taggedKeys : WorkflowConfig :=
  { matrix := [(.string "python-version", .sequence [.string "3.8", .string "3.9"]),
      (.tagged "x" (.string "python-version"), .sequence [.string "3.9"]),
      (.string "exclude", .sequence [.mapping [(.string "python-version", .string "3.9")]]),
      taggedRule] }

/-- One of the entries is overlooked, and another one has the name of the first. -/
theorem reads_entries_tagged :
    KeysDiffer taggedKeys.matrix ∧ taggedKeys.validate = .ok () ∧
      ∃ workflow, taggedKeys.toWorkflow "/home" = .ok workflow ∧
        taggedKeys.ReadsEntries workflow ∧ ¬taggedKeys.ReadersAgree workflow ∧
        workflow.plans = [⟨[("python-version", "3.8"), ("python-version", "3.9")]⟩] := by
  have hkeys : KeysDiffer taggedKeys.matrix := by
    simp [KeysDiffer, taggedKeys, taggedRule, Value.same]
  have hvalid : taggedKeys.validate = .ok () := rfl
  obtain ⟨workflow, hworkflow, hreads⟩ := reads_entries hkeys hvalid "/home"
  refine ⟨hkeys, hvalid, workflow, hworkflow, hreads, ?_, ?_⟩
  · rw [hreads.agree_iff]
    intro h
    cases h.1 taggedRule (by simp [taggedKeys])
  · cases hworkflow
    rfl

/-- Exclusions under a tagged key, and nothing else that is special. -/
def taggedExclusions : WorkflowConfig :=
  { matrix := [(.string "python-version", .sequence [.string "3.8", .string "3.9"]),
      taggedRule] }

/-- The configuration is accepted, and its first plan is one that it excludes. -/
theorem overlooks_taggedExclusions :
    KeysDiffer taggedExclusions.matrix ∧ taggedExclusions.validate = .ok () ∧
      ∃ workflow, taggedExclusions.toWorkflow "/home" = .ok workflow ∧
        workflow.plans = [⟨[("python-version", "3.8")]⟩, ⟨[("python-version", "3.9")]⟩] ∧
        ¬taggedExclusions.ReadersAgree workflow := by
  have hkeys : KeysDiffer taggedExclusions.matrix := by
    simp [KeysDiffer, taggedExclusions, taggedRule, Value.same]
  obtain ⟨workflow, hworkflow⟩ : ∃ workflow, taggedExclusions.toWorkflow "/home" = .ok workflow :=
    ⟨_, rfl⟩
  have hplans : workflow.plans =
      [⟨[("python-version", "3.8")]⟩, ⟨[("python-version", "3.9")]⟩] := by
    cases hworkflow
    rfl
  refine ⟨hkeys, rfl, workflow, hworkflow, hplans, fun hagree => ?_⟩
  have hmem : taggedRule ∈ taggedExclusions.matrix := by simp [taggedExclusions]
  have hplan : ⟨[("python-version", "3.8")]⟩ ∈ workflow.plans := by simp [hplans]
  have hrespected := hagree.respected taggedRule hmem rfl [[("python-version", "3.8")]] rfl
  exact hrespected [("python-version", "3.8")] (by simp) _ hplan (by decide)

end WorkflowConfig

end BuildMatrix
