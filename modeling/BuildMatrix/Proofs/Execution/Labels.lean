import BuildMatrix.Proofs.Execution.Completeness
import BuildMatrix.Proofs.Matrix.Label
import Mathlib.Data.List.Find
import Mathlib.Data.List.Nodup

/-!
# Runs by their labels

Where the labels of a matrix are cut in one way only, they stand for its plans: to look up a run by
the label of a plan is to look up the first run of this plan.
-/

namespace BuildMatrix

namespace Report

def IsOf (report : Report) (matrix : Matrix) : Prop := ∀ run ∈ report.runs, run.plan ∈ matrix.expand

theorem isOf_of_plans {report : Report} {matrix : Matrix}
    (h : report.runs.map (·.plan) = matrix.expand) : report.IsOf matrix := by
  intro run hrun
  rw [← h]
  exact List.mem_map_of_mem hrun

theorem runFor?_label {report : Report} {plan : Plan}
    (h : ∀ run ∈ report.runs, run.plan.label = plan.label → run.plan = plan) :
    report.runFor? plan.label = report.runs.find? fun run => run.plan == plan := by
  apply List.find?_congr
  intro run hrun
  rw [Bool.eq_iff_iff, beq_iff_eq, beq_iff_eq]
  exact ⟨h run hrun, congrArg Plan.label⟩

end Report

theorem Run.exists_find?_plan {runs : List Run} {plan : Plan} (h : plan ∈ runs.map (·.plan)) :
    ∃ run ∈ runs, runs.find? (fun run => run.plan == plan) = some run ∧ run.plan = plan := by
  obtain ⟨other, hother, hplan⟩ := List.mem_map.mp h
  have hsome : (runs.find? fun run => run.plan == plan).isSome :=
    List.find?_isSome.mpr ⟨other, hother, beq_iff_eq.mpr hplan⟩
  obtain ⟨run, hrun⟩ := Option.isSome_iff_exists.mp hsome
  have hfound := List.find?_some hrun
  exact ⟨run, List.mem_of_find?_eq_some hrun, hrun, beq_iff_eq.mp hfound⟩

namespace Matrix

open Execution (start twoRuns freshShared plans_report plansFor_of_mem)

/-- What the labels of a matrix tell of its plans and of the runs in a report on them. -/
structure LabelsIdentify (matrix : Matrix) : Prop where
  unique : ∀ p ∈ matrix.expand, ∀ q ∈ matrix.expand, p.label = q.label → p = q
  /-- The look-up by label is the look-up by plan, also of a plan without a run. -/
  first : ∀ report : Report, report.IsOf matrix → ∀ plan ∈ matrix.expand,
    report.runFor? plan.label = report.runs.find? fun run => run.plan == plan
  found : ∀ report : Report, report.IsOf matrix → ∀ run ∈ report.runs,
    ∃ found ∈ report.runs, report.runFor? run.plan.label = some found ∧ found.plan = run.plan
  /-- If no plan is reported twice, each run is found by the label of its plan. -/
  itself : ∀ report : Report, report.IsOf matrix → (report.runs.map (·.plan)).Nodup →
    ∀ run ∈ report.runs, report.runFor? run.plan.label = some run
  /-- The report of an execution has a run of each plan, and the label of the plan finds one. -/
  executed : ∀ (job : Job) (event : String) (id : Ident) (shared : Shared) (moves : List Move)
    (report : Report), job.workflow.matrix = matrix → event ∈ job.workflow.triggers →
    ((start job event id shared).run moves).report? = some report →
    report.IsOf matrix ∧ ∀ plan ∈ matrix.expand,
      ∃ run ∈ report.runs, report.runFor? plan.label = some run ∧ run.plan = plan

/--
Labels identify plans: if no name and no value of the axes has a comma with a blank behind it, plans
of the matrix that differ have different labels, and the label of a plan finds a run of this plan.
-/
theorem labels_identify {matrix : Matrix} (h : ∀ axis ∈ matrix.axes, axis.IsSeparable) :
    matrix.LabelsIdentify := by
  have hfirst (report : Report) (hof : report.IsOf matrix) (plan : Plan)
      (hplan : plan ∈ matrix.expand) :
      report.runFor? plan.label = report.runs.find? fun run => run.plan == plan := by
    apply Report.runFor?_label
    intro run hrun hlabel
    exact eq_of_label_eq h (hof run hrun) hplan hlabel
  have hfound (report : Report) (hof : report.IsOf matrix) (run : Run) (hrun : run ∈ report.runs) :
      ∃ found ∈ report.runs, report.runFor? run.plan.label = some found ∧
        found.plan = run.plan := by
    rw [hfirst report hof run.plan (hof run hrun)]
    exact Run.exists_find?_plan (List.mem_map_of_mem hrun)
  constructor
  case unique =>
    intro p hp q hq hlabel
    exact eq_of_label_eq h hp hq hlabel
  case first => exact hfirst
  case found => exact hfound
  case itself =>
    intro report hof hnodup run hrun
    obtain ⟨found, hmem, heq, hplan⟩ := hfound report hof run hrun
    rw [heq, List.inj_on_of_nodup_map hnodup hmem hrun hplan]
  case executed =>
    intro job event id shared moves report hmatrix htriggered hreport
    have hplans : report.runs.map (·.plan) = matrix.expand := by
      rw [plans_report hreport, plansFor_of_mem htriggered, Workflow.plans, hmatrix]
    have hof : report.IsOf matrix := Report.isOf_of_plans hplans
    refine ⟨hof, ?_⟩
    intro plan hplan
    rw [hfirst report hof plan hplan]
    apply Run.exists_find?_plan
    rw [hplans]
    exact hplan

/-- Names and values that begin or end with a part of the separator, or are empty. -/
def brokenSeparators : Matrix :=
  ⟨[⟨"a,", ["", ","]⟩, ⟨" b=", ["=,", "c,"]⟩], []⟩

def brokenJob : Job :=
  { twoRuns with workflow := { twoRuns.workflow with matrix := brokenSeparators } }

/-- Someone cancels at once, the four tasks notice, and they are joined. -/
def movesOfFour : List Move :=
  .cancel :: (List.replicate 3 [.turn 0 .none, .turn 1 .none, .turn 2 .none,
    .turn 3 .none]).flatten ++ List.replicate 5 .join

/-- Four labels in which commas and blanks meet at the edges of the entries. -/
theorem labels_identify_brokenSeparators :
    (∀ axis ∈ brokenSeparators.axes, axis.IsSeparable) ∧
    brokenSeparators.expand.map Plan.label =
      ["a,=,  b===,", "a,=,  b==c,", "a,=,,  b===,", "a,=,,  b==c,"] ∧
    brokenSeparators.LabelsIdentify ∧
    ∃ report, ((start brokenJob "push" .zero freshShared).run movesOfFour).report? = some report ∧
      ∀ plan ∈ brokenSeparators.expand,
        ∃ run ∈ report.runs, report.runFor? plan.label = some run ∧ run.plan = plan := by
  have hseparable : ∀ axis ∈ brokenSeparators.axes, axis.IsSeparable := by decide +kernel
  have hlabels : brokenSeparators.expand.map Plan.label =
      ["a,=,  b===,", "a,=,  b==c,", "a,=,,  b===,", "a,=,,  b==c,"] := by
    decide +kernel
  have hsome : ((start brokenJob "push" .zero freshShared).run movesOfFour).report?.isSome := by
    decide +kernel
  obtain ⟨report, hreport⟩ := Option.isSome_iff_exists.mp hsome
  have hexecuted := (labels_identify hseparable).executed brokenJob "push" .zero freshShared
    movesOfFour report rfl (by decide) hreport
  exact ⟨hseparable, hlabels, labels_identify hseparable, report, hreport, hexecuted.2⟩

end Matrix

end BuildMatrix
