import BuildMatrix.Proofs.Execution.Events
import BuildMatrix.Proofs.Task.Setup
import BuildMatrix.Proofs.Workflow.Soundness

/-!
# Runs that end in their setup

A run that fails or is interrupted while it is staged or provisioned has no results and names the
setup. Other runs name the setup only if a command of the configuration has its name and did not
pass, which their results show.
-/

namespace BuildMatrix

/-- What the results of a run and the step that its status names tell of where it ended. -/
structure TellsWhere (config : WorkflowConfig) (inSetup : Prop) (results : List StepResult)
    (status : RunStatus) : Prop where
  /-- A run that ended in its setup has no results and names the setup. -/
  setup : inSetup → results = [] ∧ status.step? = some setupStep
  /-- Any other run names exactly the step of its last result, if this did not pass. -/
  steps : ¬inSetup → NamesLast results status
  /-- Of the runs that name the setup those that ended in it have no results. -/
  empty_iff : status.step? = some setupStep → (results = [] ↔ inSetup)
  /-- The others ended at a command of the configuration that has the name of the setup. -/
  setup_iff : status.step? = some setupStep ↔ results = [] ∧ inSetup ∨
    ¬inSetup ∧ (∃ command ∈ config.commands, command.name = setupStep) ∧
      ∃ earlier last, results = earlier ++ [last] ∧ last.step = setupStep ∧
        last.outcome.isPassing = false
  /-- Where no command has this name, the setup is named by the runs that ended in it. -/
  unambiguous : (∀ command ∈ config.commands, command.name ≠ setupStep) →
    (status.step? = some setupStep ↔ results = [] ∧ inSetup)

/-- No step of a workflow but a command of its configuration has the name of the setup. -/
theorem Workflow.Sound.exists_command {workflow : Workflow} {config : WorkflowConfig}
    (h : workflow.Sound config) (hmem : setupStep ∈ workflow.steps.map (·.name)) :
    ∃ command ∈ config.commands, command.name = setupStep := by
  rw [h.names, List.mem_append, List.mem_append] at hmem
  cases hmem with
  | inl hfront =>
    cases hfront with
    | inl hlead => exact absurd hlead (by decide)
    | inr hcommand => exact List.mem_map.mp hcommand
  | inr hlast => exact absurd hlast (by decide)

theorem tellsWhere_of_inSetup (config : WorkflowConfig) {inSetup : Prop} {status : RunStatus}
    (hin : inSetup) (hnames : status.step? = some setupStep) :
    TellsWhere config inSetup [] status where
  setup _ := ⟨rfl, hnames⟩
  steps hnot := absurd hin hnot
  empty_iff _ := ⟨fun _ => hin, fun _ => rfl⟩
  setup_iff := ⟨fun _ => .inl ⟨rfl, hin⟩, fun _ => hnames⟩
  unambiguous _ := ⟨fun _ => ⟨rfl, hin⟩, fun _ => hnames⟩

theorem tellsWhere_of_steps {workflow : Workflow} {config : WorkflowConfig} {inSetup : Prop}
    {results : List StepResult} {status : RunStatus} (hsound : workflow.Sound config)
    (hnot : ¬inSetup) (hnames : NamesLast results status)
    (hmem : ∀ r ∈ results, r.step ∈ workflow.steps.map (·.name)) :
    TellsWhere config inSetup results status := by
  -- The name of the setup can only be that of a command, since no other step has it.
  have hcommand (h : status.step? = some setupStep) :
      ∃ command ∈ config.commands, command.name = setupStep := by
    obtain ⟨earlier, last, hresults, hlast, -⟩ := (hnames setupStep).mp h
    apply hsound.exists_command
    rw [← hlast]
    exact hmem last (by simp [hresults])
  constructor
  case setup => exact fun hin => absurd hin hnot
  case steps => exact fun _ => hnames
  case empty_iff =>
    intro h
    obtain ⟨earlier, last, rfl, -, -⟩ := (hnames setupStep).mp h
    exact ⟨fun hempty => absurd hempty (by simp), fun hin => absurd hin hnot⟩
  case setup_iff =>
    constructor
    · intro h
      exact .inr ⟨hnot, hcommand h, (hnames setupStep).mp h⟩
    · intro h
      cases h with
      | inl hsetup => exact absurd hsetup.2 hnot
      | inr hlast => exact (hnames setupStep).mpr hlast.2.2
  case unambiguous =>
    intro hnone
    constructor
    · intro h
      obtain ⟨command, hc, hname⟩ := hcommand h
      exact absurd hname (hnone command hc)
    · intro h
      exact absurd h.2 hnot

theorem Verdict.tellsWhere {workflow : Workflow} {config : WorkflowConfig} {inSetup : Prop}
    {results : List StepResult} {status : RunStatus} (hsound : workflow.Sound config)
    (h : Verdict (workflow.steps.map (·.name)) inSetup results status) :
    TellsWhere config inSetup results status := by
  cases h with
  | inSetup status hin hnames => exact tellsWhere_of_inSetup config hin hnames
  | ofSteps results status hnot hnames hmem => exact tellsWhere_of_steps hsound hnot hnames hmem

namespace Execution

section
variable {e : Execution} {position : Nat}

/-- A move takes a task from its staging or provisioning to its closing. -/
def LeavesSetup (e : Execution) (move : Move) (position : Nat) : Prop :=
  ∃ before after, e.tasks[position]? = some before ∧ before.stage.inSetup ∧
    (e.move move).tasks[position]? = some after ∧ after.stage.isClosing

def EndsInSetup (e : Execution) (moves : List Move) (position : Nat) : Prop :=
  ∃ done move later, moves = done ++ move :: later ∧ (e.run done).LeavesSetup move position

theorem endsInSetup_concat (e : Execution) (moves : List Move) (move : Move) (position : Nat) :
    e.EndsInSetup (moves ++ [move]) position ↔
      e.EndsInSetup moves position ∨ (e.run moves).LeavesSetup move position :=
  happens_concat moves move fun done move => (e.run done).LeavesSetup move position

theorem leavesSetup_iff {move : Move} {before after : Task}
    (hb : e.tasks[position]? = some before) (ha : (e.move move).tasks[position]? = some after) :
    e.LeavesSetup move position ↔ before.stage.inSetup ∧ after.stage.isClosing := by
  constructor
  · intro h
    obtain ⟨before', after', hb', hin, ha', hclosing⟩ := h
    rw [hb, Option.some.injEq] at hb'
    rw [ha, Option.some.injEq] at ha'
    exact ⟨hb' ▸ hin, ha' ▸ hclosing⟩
  · intro h
    exact ⟨before, after, hb, h.1, ha, h.2⟩

/-- Each plan of a workflow that was accepted has a version, so a run that begins gets to its
setup. -/
theorem versionFor?_ne_none {job : Job} {config : WorkflowConfig}
    (hsound : job.workflow.Sound config) {event : String} {id : Ident} {shared : Shared}
    {moves : List Move} {task : Task}
    (ht : ((start job event id shared).run moves).tasks[position]? = some task) :
    job.workflow.versionFor? task.plan ≠ none := by
  have hplan : task.plan ∈ plansFor job.workflow event :=
    List.mem_of_getElem? (plan_run job event id shared moves ht)
  have hmem : task.plan ∈ job.workflow.plans := by
    unfold plansFor at hplan
    split at hplan
    · exact hplan
    · cases hplan
  obtain ⟨version, hversion, -⟩ := hsound.version task.plan hmem
  rw [hversion]
  exact Option.some_ne_none version

/-- At any time a run that has ended has the verdict that its end calls for. -/
theorem located_run {job : Job} {config : WorkflowConfig} (hsound : job.workflow.Sound config)
    (event : String) (id : Ident) (shared : Shared) (moves : List Move) {task : Task}
    (ht : ((start job event id shared).run moves).tasks[position]? = some task) :
    task.stage.Located (job.workflow.steps.map (·.name))
      ((start job event id shared).EndsInSetup moves position) := by
  induction moves using List.reverseRecOn generalizing task with
  | nil =>
    have hspawned : task.stage = .spawned := stage_start ht
    rw [hspawned]
    intro h
    obtain ⟨done, move, later, hsplit, -⟩ := h
    simp at hsplit
  | append_singleton moves move ih =>
    -- Only the last move can have become the one at which the run ends in its setup.
    rw [run_concat] at ht
    have hconcat := endsInSetup_concat (start job event id shared) moves move position
    rcases tasks_move ((start job event id shared).run moves) move position with
      hsame | ⟨reply, before, -, hbefore, hafter⟩
    · have hbefore := hsame ▸ ht
      have hquiet : ¬((start job event id shared).run moves).LeavesSetup move position := by
        rw [leavesSetup_iff hbefore ht]
        intro h
        rw [Stage.not_isClosing_of_inSetup h.1] at h
        exact Bool.false_ne_true h.2
      rw [propext (hconcat.trans (or_iff_left hquiet))]
      exact ih hbefore
    · have hleaves := leavesSetup_iff hbefore hafter
      rw [hafter, Option.some.injEq] at ht
      subst ht
      rw [job_run] at hleaves ⊢
      exact Task.located_turn (versionFor?_ne_none hsound hbefore)
        (accounted_run job event id shared moves hbefore) (ih hbefore)
        (hconcat.trans (or_congr_right hleaves))

end

/-- However the host answers and whenever the cancellation is requested, the results of a run of an
accepted configuration and the step that its status names tell whether it ended in its setup. The
report has this run. -/
theorem tells_where_it_ended {config : WorkflowConfig} {home : String} {job : Job}
    (hworkflow : config.toWorkflow home = .ok job.workflow) (event : String) (id : Ident)
    (shared : Shared) (moves : List Move) {position : Nat} {task : Task} {run : Run}
    (ht : ((start job event id shared).run moves).tasks[position]? = some task)
    (hs : task.stage = .finished run) :
    TellsWhere config ((start job event id shared).EndsInSetup moves position) run.results
      run.status ∧
      ∀ report, ((start job event id shared).run moves).report? = some report →
        report.runs[position]? = some run := by
  have hsound := WorkflowConfig.sound_of_toWorkflow hworkflow
  constructor
  · have hlocated := located_run hsound event id shared moves ht
    rw [hs] at hlocated
    exact Verdict.tellsWhere hsound hlocated
  · intro report hreport
    obtain ⟨reported, hrun, hof⟩ :=
      exists_runOf (joined_run (joined_start job event id shared) moves) hreport ht
    cases hof with
    | finished run' hs' =>
      obtain rfl := Stage.finished.inj (hs.symm.trans hs')
      exact hrun
    | aborted message now hs' => cases hs.symm.trans hs'

/-- A configuration with a command that has the name of the setup. -/
def namesakeConfig : WorkflowConfig := { commands := [⟨"setup-python", ["false"]⟩] }

def namesakeWorkflow : Workflow :=
  (namesakeConfig.toWorkflow "/home").toOption.getD builtinWorkflow

def badReply : Reply := { goodReply with output := .ready (.ok ⟨some 1, "", ""⟩) }

/-- The first run has its steps carried out as far as the command, which fails, and is closed. -/
def movesToNamesake : List Move :=
  List.replicate 16 (.turn 0 goodReply) ++ List.replicate 2 (.turn 0 badReply)

theorem names_setup_after_steps :
    namesakeConfig.toWorkflow "/home" = .ok namesakeWorkflow ∧
    ∃ run, (((start ⟨namesakeWorkflow, "/package", "/tmp"⟩ "push" .zero freshShared).run
        movesToNamesake).tasks[0]?.bind Task.run?) = some run ∧
      run.status.step? = some setupStep ∧ run.results.map (·.step) =
        ["upgrade-pip", "install-requirements", "install-test-runner", "setup-python"] := by
  have hrun : ((((start ⟨namesakeWorkflow, "/package", "/tmp"⟩ "push" .zero freshShared).run
      movesToNamesake).tasks[0]?.bind Task.run?).map fun run =>
        (run.status.step?, run.results.map (·.step))) = some (some setupStep,
          ["upgrade-pip", "install-requirements", "install-test-runner", "setup-python"]) := by
    decide +kernel
  obtain ⟨run, hrun, hsame⟩ := Option.map_eq_some_iff.mp hrun
  rw [Prod.mk.injEq] at hsame
  exact ⟨by decide +kernel, run, hrun, hsame⟩

def noInterpreter : Reply :=
  { Reply.none with toolchain := .ready (.error (.notFound "3.7" ["python3.7"])) }

/-- The first run is staged and not provisioned, and is closed. -/
def movesToNoInterpreter : List Move :=
  List.replicate 3 (.turn 0 goodReply) ++ List.replicate 2 (.turn 0 noInterpreter)

/-- The run has no results and names the setup, which tells that it ended there. -/
theorem tells_where_it_ended_noInterpreter :
    ({} : WorkflowConfig).toWorkflow "/home" = .ok builtinWorkflow ∧ ∃ task run,
      ((start ⟨builtinWorkflow, "/package", "/tmp"⟩ "push" .zero freshShared).run
        movesToNoInterpreter).tasks[0]? = some task ∧
      task.stage = .finished run ∧ run.results = [] ∧
      (start ⟨builtinWorkflow, "/package", "/tmp"⟩ "push" .zero freshShared).EndsInSetup
        movesToNoInterpreter 0 := by
  have hconfig : ({} : WorkflowConfig).toWorkflow "/home" = .ok builtinWorkflow := by decide +kernel
  have hended : ((((start ⟨builtinWorkflow, "/package", "/tmp"⟩ "push" .zero freshShared).run
      movesToNoInterpreter).tasks[0]?.bind Task.run?).map fun run =>
        (run.status.step?, run.results)) = some (some setupStep, []) := by
    decide +kernel
  obtain ⟨run, hrun, hsame⟩ := Option.map_eq_some_iff.mp hended
  obtain ⟨hnames, hresults⟩ := Prod.mk.inj hsame
  obtain ⟨task, ht, hrun⟩ := Option.bind_eq_some_iff.mp hrun
  have hs := Task.stage_of_run? hrun
  have htells :=
    (tells_where_it_ended hconfig "push" .zero freshShared movesToNoInterpreter ht hs).1
  exact ⟨hconfig, task, run, ht, hs, hresults, (htells.empty_iff hnames).mp hresults⟩

end Execution

end BuildMatrix
