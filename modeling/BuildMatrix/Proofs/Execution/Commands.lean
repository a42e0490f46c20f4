import BuildMatrix.Proofs.Execution.Setup
import BuildMatrix.Proofs.Task.Commands
import BuildMatrix.Proofs.Workflow.Commands
import BuildMatrix.Proofs.Workflow.Reading

/-!
# The commands that are handed over

Every command that is handed over in an execution is that of a step of its run: it is carried out
in the workspace that was staged for this run and with the interpreter that was provisioned for it,
whatever the other runs do in between.
-/

namespace BuildMatrix.Execution

/-- A move gives a turn to the task of a plan, at a stage. -/
structure GivesTurn (e : Execution) (position : Nat) (plan : Plan) (stage : Stage) (reply : Reply)
    (move : Move) : Prop where
  move : move = .turn position reply
  task : ∃ task, e.tasks[position]? = some task ∧ task.plan = plan ∧ task.stage = stage

def Stages (e : Execution) (position : Nat) (plan : Plan) (workspace : Workspace) (move : Move) :
    Prop :=
  ∃ version reply files, e.job.workflow.versionFor? plan = some version ∧
    e.GivesTurn position plan (.staging version) reply move ∧
    Workspace.stage e.shared.scene.files e.job.temporary e.job.directory plan =
      (files, .ok workspace)

def Provisions (e : Execution) (position : Nat) (plan : Plan) (setup : Setup) (move : Move) :
    Prop :=
  ∃ version asked reply, e.job.workflow.versionFor? plan = some version ∧
    e.GivesTurn position plan (.provisioning version setup.workspace asked) reply move ∧
    reply.toolchain = .ready (.ok setup.toolchain)

def HandsOver (e : Execution) (position : Nat) (plan : Plan) (setup : Setup) (step : Step)
    (files : FileSystem) (move : Move) : Prop :=
  ∃ cache results rest startedAt reply,
    e.GivesTurn position plan (.stepping setup cache (.busy results step rest false startedAt))
      reply move ∧
    files = e.shared.scene.files

def Staged (e : Execution) (moves : List Move) (position : Nat) (plan : Plan)
    (workspace : Workspace) : Prop :=
  Happens moves fun done move => (e.run done).Stages position plan workspace move

def Provisioned (e : Execution) (moves : List Move) (position : Nat) (plan : Plan)
    (setup : Setup) : Prop :=
  Happens moves fun done move => (e.run done).Provisions position plan setup move ∧
    e.Staged done position plan setup.workspace

/-- The command of a step was handed over, after the interpreter of the run was provisioned. -/
def HandedOver (e : Execution) (moves : List Move) (position : Nat) (plan : Plan) (setup : Setup)
    (step : Step) (files : FileSystem) : Prop :=
  Happens moves fun done move => (e.run done).HandsOver position plan setup step files move ∧
    e.Provisioned done position plan setup

/-- A run has its workspace and its interpreter from turns of its own. -/
structure Sourced (e : Execution) (moves : List Move) (position : Nat) (task : Task) : Prop where
  staging : ∀ version, task.stage = .staging version →
    e.job.workflow.versionFor? task.plan = some version
  provisioning : ∀ version workspace asked, task.stage = .provisioning version workspace asked →
    e.job.workflow.versionFor? task.plan = some version ∧
      e.Staged moves position task.plan workspace
  setup : ∀ setup, task.stage.setup? = some setup → e.Provisioned moves position task.plan setup

section
variable {e : Execution} {moves : List Move} {position : Nat} {plan : Plan}

theorem Sourced.concat {task : Task} (h : e.Sourced moves position task) (move : Move) :
    e.Sourced (moves ++ [move]) position task where
  staging := h.staging
  provisioning version workspace asked hs :=
    (h.provisioning version workspace asked hs).imp_right fun hstaged => hstaged.earlier move
  setup setup hs := (h.setup setup hs).earlier move

/-- What a run has after a turn of its own it had before, or the turn is the one that gives it. -/
theorem Sourced.turn {task : Task} (h : e.Sourced moves position task)
    (ht : (e.run moves).tasks[position]? = some task) (reply : Reply) :
    e.Sourced (moves ++ [.turn position reply]) position
      (task.after e.job reply (e.run moves).shared) := by
  have hturn (stage : Stage) (hs : task.stage = stage) :
      (e.run moves).GivesTurn position task.plan stage reply (.turn position reply) :=
    ⟨rfl, task, ht, rfl, hs⟩
  constructor
  case staging =>
    intro version hs
    have hversion : e.job.workflow.versionFor? task.plan = some version :=
      Task.version_turn h.staging hs
    exact hversion
  case provisioning =>
    intro version workspace asked hs
    cases Task.provisioning_origin hs with
    | inl hkept =>
      obtain ⟨asked', hkept⟩ := hkept
      exact (h.concat _).provisioning version workspace asked' hkept
    | inr hnow =>
      obtain ⟨files, hstaging, hstage⟩ := hnow
      have hversion := h.staging version hstaging
      refine ⟨hversion, Happens.now ⟨version, reply, files, ?_, hturn _ hstaging, ?_⟩⟩
      · rw [job_run]
        exact hversion
      · rw [job_run]
        exact hstage
  case setup =>
    intro setup hs
    cases Task.setup_origin hs with
    | inl hkept => exact (h.concat _).setup setup hkept
    | inr hnow =>
      obtain ⟨version, asked, hprovisioning, hready⟩ := hnow
      obtain ⟨hversion, hstaged⟩ := h.provisioning version setup.workspace asked hprovisioning
      refine Happens.now ⟨⟨version, asked, reply, ?_, hturn _ hprovisioning, hready⟩, hstaged⟩
      rw [job_run]
      exact hversion

end

section
variable (job : Job) (event : String) (id : Ident) (shared : Shared)

theorem sourced_run (moves : List Move) {position : Nat} {task : Task}
    (ht : ((start job event id shared).run moves).tasks[position]? = some task) :
    (start job event id shared).Sourced moves position task := by
  induction moves using List.reverseRecOn generalizing task with
  | nil =>
    have hspawned : task.stage = .spawned := stage_start ht
    constructor
    case staging =>
      intro version hs
      cases hspawned.symm.trans hs
    case provisioning =>
      intro version workspace asked hs
      cases hspawned.symm.trans hs
    case setup =>
      intro setup hs
      rw [hspawned] at hs
      cases hs
  | append_singleton moves move ih =>
    rw [run_concat] at ht
    rcases tasks_move ((start job event id shared).run moves) move position with
      hsame | ⟨reply, before, rfl, hbefore, hafter⟩
    · exact (ih (hsame ▸ ht)).concat move
    · rw [hafter, Option.some.injEq] at ht
      subst ht
      rw [job_run]
      exact (ih hbefore).turn hbefore reply

theorem mem_steps_of_busy (moves : List Move) {position : Nat} {task : Task} {setup : Setup}
    {cache : RestoredCache} {results : List StepResult} {step : Step} {rest : List Step}
    {handed : Bool} {startedAt : Instant}
    (ht : ((start job event id shared).run moves).tasks[position]? = some task)
    (hs : task.stage = .stepping setup cache (.busy results step rest handed startedAt)) :
    step ∈ job.workflow.steps := by
  have haccount := accounted_run job event id shared moves ht
  rw [hs] at haccount
  obtain ⟨notices, answers, attempts, before, during, -, -, -, -, hsteps⟩ := haccount
  simp [hsteps]

/-- A command that a move writes down is that of the step in flight, and belongs to the run. -/
theorem handed_move (moves : List Move) (move : Move) {position : Nat} {command : Command}
    {files : FileSystem} (h : ((start job event id shared).run moves).Writes move
      ⟨some position, .handed command files⟩) :
    ∃ plan setup step, (plansFor job.workflow event)[position]? = some plan ∧
      step ∈ job.workflow.steps ∧ command = step.command (Task.context job plan setup) ∧
      (start job event id shared).HandedOver (moves ++ [move]) position plan setup step files := by
  cases h with
  | turn _ reply task _ hmove ht hentry =>
    rw [job_run] at hentry
    obtain ⟨setup, cache, results, step, rest, startedAt, hs, hcommand, hfiles⟩ :=
      Task.handed_turn hentry
    have hprovisioned := (sourced_run job event id shared moves ht).setup setup (by rw [hs]; rfl)
    have hturn : ((start job event id shared).run moves).HandsOver position task.plan setup step
        files move :=
      ⟨cache, results, rest, startedAt, reply, ⟨hmove, task, ht, rfl, hs⟩, hfiles⟩
    exact ⟨task.plan, setup, step, plan_run job event id shared moves ht,
      mem_steps_of_busy job event id shared moves ht hs, hcommand, Happens.now ⟨hturn, hprovisioned⟩⟩

theorem handed_run (moves : List Move) {position : Nat} {command : Command} {files : FileSystem}
    (h : .handed command files ∈ ((start job event id shared).run moves).entriesOf position) :
    ∃ plan setup step, (plansFor job.workflow event)[position]? = some plan ∧
      step ∈ job.workflow.steps ∧ command = step.command (Task.context job plan setup) ∧
      (start job event id shared).HandedOver moves position plan setup step files := by
  rw [mem_entriesOf] at h
  induction moves using List.reverseRecOn with
  | nil => simp [start, announce] at h
  | append_singleton moves move ih =>
    rw [run_concat] at h
    obtain ⟨later, hlog, hwrites⟩ := ((start job event id shared).run moves).log_move move
    rw [hlog, List.mem_append] at h
    cases h with
    | inl hearlier =>
      obtain ⟨plan, setup, step, hplan, hstep, hcommand, hhanded⟩ := ih hearlier
      exact ⟨plan, setup, step, hplan, hstep, hcommand, hhanded.earlier move⟩
    | inr hnow => exact handed_move job event id shared moves move (hwrites _ hnow)

end

/-- Whatever the configuration that was accepted and however the turns of the runs are mixed, every
command that is handed over in a run is bound to this run: it is for its plan and the step in
flight, in the workspace that was staged and with the interpreter that was provisioned for it. -/
theorem commands_bound {config : WorkflowConfig} {home : String} {job : Job}
    (hworkflow : config.toWorkflow home = .ok job.workflow) (event : String) (id : Ident)
    (shared : Shared) (moves : List Move) {position : Nat} {command : Command} {files : FileSystem}
    (h : .handed command files ∈ ((start job event id shared).run moves).entriesOf position) :
    ∃ plan setup step, (plansFor job.workflow event)[position]? = some plan ∧
      step ∈ job.workflow.steps ∧
      (start job event id shared).HandedOver moves position plan setup step files ∧
      command.IsBound config home job.workflow plan setup step := by
  obtain ⟨plan, setup, step, hplan, hstep, hcommand, hhanded⟩ :=
    handed_run job event id shared moves h
  refine ⟨plan, setup, step, hplan, hstep, hhanded, ?_⟩
  rw [hcommand]
  exact WorkflowConfig.isBound_command hworkflow hstep plan setup

/-- A configuration whose own variables have the names of those that are set for a run. -/
def shadowingText : String :=
  "env: \x7bskip_native_build: false, extra: \x7bZ: on, CI: off, SKIP_CYTHON: maybe,\n" ++
  "  PIP_CACHE_DIR: /shared\x7d\x7d\nsteps: [\x7bname: lint, run: [flake8, .]\x7d]\n"

def shadowingConfig : WorkflowConfig := (WorkflowConfig.ofYaml? shadowingText).getD {}

def shadowingJob : Job :=
  ⟨(shadowingConfig.toWorkflow "/home").toOption.getD builtinWorkflow, "/package", "/tmp"⟩

def movesToLast : List Move := List.replicate 20 (.turn 0 goodReply)

def lintCommand : Command :=
  { program := "flake8"
    arguments := ["."]
    directory := "/tmp/ci-matrix-python-version-3-7-000000"
    environment := ⟨[("CI", "true"),
      ("PIP_CACHE_DIR", "/home/.cache/ci-matrix/pip/python-version-3-7"), ("SKIP_CYTHON", "maybe"),
      ("Z", "on")]⟩
    timeoutSeconds := 1800 }

/-- Only the switch that is off leaves the variable of the configuration as it is. -/
theorem commands_bound_shadowing :
    WorkflowConfig.ofYaml? shadowingText = some shadowingConfig ∧
    shadowingConfig.toWorkflow "/home" = .ok shadowingJob.workflow ∧
    ∃ files plan setup step, .handed lintCommand files ∈
        ((start shadowingJob "push" .zero freshShared).run movesToLast).entriesOf 0 ∧
      lintCommand.IsBound shadowingConfig "/home" shadowingJob.workflow plan setup step ∧
      ∀ name value, (name, value) ∈ lintCommand.environment.entries ↔
        lintCommand.environment.get? name = some value := by
  -- One evaluation for all three, since each of them would read the text again.
  obtain ⟨hsome, hconfig, hhanded⟩ : (WorkflowConfig.ofYaml? shadowingText).isSome ∧
      shadowingConfig.toWorkflow "/home" = .ok shadowingJob.workflow ∧
      (((start shadowingJob "push" .zero freshShared).run movesToLast).entriesOf 0).any
        fun entry => match entry with
          | .handed command _ => command = lintCommand
          | _ => false := by
    decide +kernel
  have hread : WorkflowConfig.ofYaml? shadowingText = some shadowingConfig := by
    unfold shadowingConfig
    generalize WorkflowConfig.ofYaml? shadowingText = config? at hsome ⊢
    cases config? with
    | some config => rfl
    | none => cases hsome
  obtain ⟨entry, hentry, hcommand⟩ := List.any_eq_true.mp hhanded
  cases entry with
  | handed command files =>
    obtain rfl := of_decide_eq_true hcommand
    obtain ⟨plan, setup, step, -, -, -, hbound⟩ :=
      commands_bound hconfig "push" .zero freshShared movesToLast hentry
    have hentries := hbound.entries (WorkflowConfig.isAscending_of_ofYaml? hread)
    exact ⟨hread, hconfig, files, plan, setup, step, hentry, hbound, hentries.2⟩
  | event event => cases hcommand
  | asked version => cases hcommand

end BuildMatrix.Execution
