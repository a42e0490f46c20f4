import BuildMatrix.Proofs.Execution.Completeness
import BuildMatrix.Proofs.Workflow.Axes

/-!
# Repeated plans

Nothing keeps the matrix of a valid configuration from listing a value twice, be it written twice
or as a number and as a text. Its plans are then carried out and reported as often as they are
listed. They are pairwise different exactly if each of them is listed once.
-/

namespace BuildMatrix

open WorkflowConfig (scalarText?)

/-- The plans of a workflow are there as often as the items of its configuration list them. -/
structure Workflow.AsListed (workflow : Workflow) (config : WorkflowConfig) : Prop where
  /-- One plan for each way to pick an item of each axis, unless exclusions take some out. -/
  length_eq : config.exclusions = .ok [] → config.axisItems ≠ [] →
    workflow.plans.length = (config.axisItems.map fun listed => listed.2.length).prod
  count : ∀ plan ∈ workflow.plans, workflow.plans.count plan = (config.listings plan).prod
  nodup_iff : workflow.plans.Nodup ↔
    ∀ plan ∈ workflow.plans, ∀ n ∈ config.listings plan, n = 1
  /-- Axes whose items have different texts have no plan twice, whatever is excluded. -/
  nodup : (∀ listed ∈ config.axisItems, (listed.2.map scalarText?).Nodup) → workflow.plans.Nodup
  nodup_free_iff : config.exclusions = .ok [] → (∀ listed ∈ config.axisItems, listed.2 ≠ []) →
    (workflow.plans.Nodup ↔
      ∀ listed ∈ config.axisItems, (listed.2.map scalarText?).Nodup)
  /-- A run for each of the plans, also for those that are the same. -/
  executed : ∀ (job : Job) (event : String) (id : Ident) (shared : Shared) (moves : List Move),
    job.workflow = workflow → event ∈ workflow.triggers →
    ((Execution.start job event id shared).run moves).tasks.map (·.plan) = workflow.plans ∧
    ∀ report, ((Execution.start job event id shared).run moves).report? = some report →
      report.runs.map (·.plan) = workflow.plans

namespace WorkflowConfig

variable {config : WorkflowConfig} {workflow : Workflow} {home : String}

theorem forall_mem_iff_of_forall₂ {α β : Type} {R : α → β → Prop} {P : α → Prop} {Q : β → Prop}
    {as : List α} {bs : List β} (h : List.Forall₂ R as bs) (hiff : ∀ a b, R a b → (P a ↔ Q b)) :
    (∀ a ∈ as, P a) ↔ ∀ b ∈ bs, Q b := by
  induction h with
  | nil => simp
  | cons hhead _ ih => rw [List.forall_mem_cons, List.forall_mem_cons, hiff _ _ hhead, ih]

theorem nodup_axisItems_iff {axes : List Axis} (h : config.axes = .ok axes) :
    (∀ listed ∈ config.axisItems, (listed.2.map scalarText?).Nodup) ↔
      ∀ axis ∈ axes, axis.values.Nodup :=
  forall_mem_iff_of_forall₂ (isRead_of_axes h) fun _ _ hread => hread.nodup_iff

theorem axisItems_ne_nil_iff {axes : List Axis} (h : config.axes = .ok axes) :
    (∀ listed ∈ config.axisItems, listed.2 ≠ []) ↔ ∀ axis ∈ axes, axis.values ≠ [] :=
  forall_mem_iff_of_forall₂ (isRead_of_axes h) fun listed axis hread => by
    rw [← List.length_pos_iff, ← List.length_pos_iff, hread.length_eq]

/--
The plans of a workflow are there as often as they are listed: each as often as its values can be
picked from the items of the axes, where items are the same if they are written alike as texts.
They are executed and reported this often. Each plan is there once exactly if it is listed once.
-/
theorem plans_as_listed (h : config.toWorkflow home = .ok workflow) : workflow.AsListed config := by
  obtain ⟨-, axes, exclusions, filter, hreads, hmatrix, -⟩ := reads_of_toWorkflow h
  have haxes := hreads.readsAxes
  have hplans : workflow.plans = Matrix.expand ⟨axes, exclusions⟩ := by
    rw [Workflow.plans, hmatrix]
  have hfree (hnone : config.exclusions = .ok []) : workflow.plans = Matrix.expand ⟨axes, []⟩ := by
    rw [hplans, Except.ok.inj (hreads.readsExclusions.symm.trans hnone)]
  constructor
  case length_eq =>
    intro hnone hne
    have hsome : axes ≠ [] := by
      intro hnil
      have hread := isRead_of_axes haxes
      rw [hnil] at hread
      exact hne (List.forall₂_nil_right_iff.mp hread)
    rw [hfree hnone, Matrix.expand_without_rules hsome, List.length_map,
      Matrix.length_combinations, volume_of_axes haxes]
  case count =>
    intro plan hplan
    rw [hplans] at hplan ⊢
    rw [Matrix.count_expand hplan, listings_of_axes haxes]
  case nodup_iff =>
    simp only [hplans, Matrix.nodup_expand_iff, listings_of_axes haxes]
  case nodup =>
    intro hdistinct
    rw [hplans]
    exact Matrix.nodup_expand ((nodup_axisItems_iff haxes).mp hdistinct)
  case nodup_free_iff =>
    intro hnone hne
    rw [hfree hnone, Matrix.nodup_expand_free_iff ((axisItems_ne_nil_iff haxes).mp hne),
      nodup_axisItems_iff haxes]
  case executed =>
    intro job event id shared moves hjob htriggered
    have hall : Execution.plansFor job.workflow event = workflow.plans := by
      rw [hjob]
      exact Execution.plansFor_of_mem htriggered
    constructor
    · rw [Execution.plans_run, hall]
    · intro report hreport
      rw [Execution.plans_report hreport, hall]

def repeatedItems : WorkflowConfig :=
  { matrix := [(.string "python-version", .sequence [.string "3.8", .string "3.8"]),
      (.string "shard", .sequence [.integer 1, .string "1"])] }

def repeatedPlan : Plan := ⟨[("python-version", "3.8"), ("shard", "1")]⟩

/-- Four items make one plan four times. -/
theorem plans_as_listed_repeated :
    ∃ workflow, repeatedItems.toWorkflow "/home" = .ok workflow ∧
      workflow.AsListed repeatedItems ∧ workflow.plans = List.replicate 4 repeatedPlan := by
  obtain ⟨workflow, hworkflow⟩ : ∃ workflow, repeatedItems.toWorkflow "/home" = .ok workflow :=
    ⟨_, rfl⟩
  have hplans : workflow.plans = List.replicate 4 repeatedPlan := by
    cases hworkflow
    rfl
  exact ⟨workflow, hworkflow, plans_as_listed hworkflow, hplans⟩

def sameVersions : WorkflowConfig :=
  { matrix := [(.string "python-version", .sequence [.string "3.8", .string "3.8"])] }

/-- The configuration is accepted, and its two runs are of one plan. -/
theorem plans_sameVersions :
    ∃ workflow, sameVersions.validate = .ok () ∧ sameVersions.toWorkflow "/home" = .ok workflow ∧
      workflow.plans = List.replicate 2 ⟨[("python-version", "3.8")]⟩ ∧ ¬workflow.plans.Nodup := by
  obtain ⟨workflow, hworkflow⟩ : ∃ workflow, sameVersions.toWorkflow "/home" = .ok workflow :=
    ⟨_, rfl⟩
  have hplans : workflow.plans = List.replicate 2 ⟨[("python-version", "3.8")]⟩ := by
    cases hworkflow
    rfl
  refine ⟨workflow, (reads_of_toWorkflow hworkflow).1, hworkflow, hplans, ?_⟩
  rw [hplans]
  decide

end WorkflowConfig

end BuildMatrix
