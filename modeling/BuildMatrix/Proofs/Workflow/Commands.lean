import BuildMatrix.Proofs.Environment
import BuildMatrix.Proofs.Workflow.Soundness
import Mathlib.Data.List.Nodup

/-!
# The commands of a workflow

The command of a step belongs to one plan: its interpreter, its directory and the variables that it
sees are those of the run of this plan, and its arguments are those of the step, whatever the run.
-/

namespace BuildMatrix

/-- What is right about the command of a step, for a plan with its workspace and its interpreter. -/
structure Command.IsBound (command : Command) (config : WorkflowConfig) (home : String)
    (workflow : Workflow) (plan : Plan) (setup : Setup) (step : Step) : Prop where
  /-- A further command that is not for the interpreter keeps its own program. -/
  ownProgram : ∀ further ∈ config.commands, further.name = step.name →
    ∀ program, further.run.head? = some program → program ≠ "python" → command.program = program
  interpreter : (∀ further ∈ config.commands, further.name = step.name →
      further.run.head? = some "python") → command.program = setup.toolchain.interpreter
  /-- The arguments are those that are shown for the step and the plan, in every directory. -/
  arguments : ∀ workdir, command.arguments =
    (step.command (CommandLine.previewContext workflow workdir plan)).arguments
  directory : command.directory = setup.workspace.path
  timeout : command.timeoutSeconds = config.stepTimeoutSeconds
  /-- The value that each name has, also if the configuration has other values for it. -/
  environment : ∀ name, command.environment.get? name =
    if name = "PIP_CACHE_DIR" then some ((config.cachePolicy home).directoryFor plan)
    else if name = "CI" ∧ config.environment.unattended then some "true"
    else if name = "SKIP_CYTHON" ∧ config.environment.skipNativeBuild then some "1"
    else config.environment.extra.get? name
  /-- There are no other entries if the variables are in the order of their names, as those of a
  configuration that was read are. -/
  entries : config.environment.extra.IsAscending → command.environment.IsAscending ∧
    ∀ name value, (name, value) ∈ command.environment.entries ↔
      command.environment.get? name = some value

/-- The arguments of a step do not depend on the run. -/
theorem Step.arguments_command (step : Step) (context context' : RunContext) :
    (step.command context).arguments = (step.command context').arguments := by
  unfold command invocation
  cases step.action with
  | shell program arguments => rfl
  | package action => cases action <;> rfl
  | test runner filter => rfl

theorem Step.program_command (step : Step) (context : RunContext) :
    (step.command context).program =
      match step.action with
      | .shell program _ =>
        if program = interpreterName then context.toolchain.interpreter else program
      | _ => context.toolchain.interpreter := by
  unfold command invocation
  cases step.action with
  | shell program arguments => rfl
  | package action => cases action <;> rfl
  | test runner filter => rfl

namespace WorkflowConfig

variable {config : WorkflowConfig} {workflow : Workflow} {home : String}

theorem environment_of_toWorkflow (h : config.toWorkflow home = .ok workflow) :
    workflow.environment = config.environment.toEnvironment := by
  obtain ⟨hvalid, axes, exclusions, filter, hreads, -⟩ := reads_of_toWorkflow h
  rw [toWorkflow_eq_ok hvalid hreads] at h
  cases h
  rfl

/-- Where a step comes from: it is for a command of the configuration, or has a name of its own and
runs a module of the interpreter. -/
inductive StepOrigin (config : WorkflowConfig) (step : Step) : Prop
  | further (command : CommandConfig) : command ∈ config.commands →
      step = commandStep config.stepTimeoutSeconds command → StepOrigin config step
  | standard : step.name ∉ config.commands.map (·.name) →
      (∀ program arguments, step.action ≠ .shell program arguments) → StepOrigin config step

theorem stepOrigin_of_mem_steps {filter : TestFilter} {step : Step}
    (hcommands : Commands [] config.commands) (h : step ∈ config.steps filter) :
    StepOrigin config step := by
  have hfresh {name : String} (hname : name ∈ standardStepNames) :
      name ∉ config.commands.map (·.name) := by
    intro hmem
    obtain ⟨command, hcommand, rfl⟩ := List.mem_map.mp hmem
    exact hcommands.unreserved command hcommand hname
  simp only [steps, List.mem_append, List.mem_cons, List.not_mem_nil, or_false, List.mem_map] at h
  rcases h with ((rfl | rfl | rfl) | ⟨command, hcommand, rfl⟩) | rfl | rfl
  case inl.inr => exact .further command hcommand rfl
  all_goals exact .standard (hfresh (by simp [standardStepNames])) (by simp)

/-- No two commands of a valid configuration have one name. -/
theorem Commands.eq_of_name {earlier : List String} {commands : List CommandConfig}
    (h : Commands earlier commands) {a b : CommandConfig} (ha : a ∈ commands) (hb : b ∈ commands)
    (hname : a.name = b.name) : a = b :=
  List.inj_on_of_nodup_map h.distinct ha hb hname

theorem isBound_command {job : Job} (h : config.toWorkflow home = .ok job.workflow) {step : Step}
    (hstep : step ∈ job.workflow.steps) (plan : Plan) (setup : Setup) :
    (step.command (Task.context job plan setup)).IsBound config home job.workflow plan setup
      step := by
  obtain ⟨-, axes, exclusions, filter, hreads, -, -, hcache, hsteps⟩ := reads_of_toWorkflow h
  rw [hsteps] at hstep
  have horigin := stepOrigin_of_mem_steps hreads.commands hstep
  have henvironment := environment_of_toWorkflow h
  constructor
  case ownProgram =>
    intro further hfurther hname program hprogram hother
    cases horigin with
    | further command hcommand he =>
      obtain rfl := hreads.commands.eq_of_name hfurther hcommand (hname.trans (he ▸ rfl))
      have hhead : further.run.headD "" = program := by
        rw [List.headD_eq_head?_getD, hprogram]
        rfl
      rw [he, Step.program_command, commandStep, hhead]
      exact if_neg hother
    | standard hfresh _ => exact absurd (hname ▸ List.mem_map_of_mem hfurther) hfresh
  case interpreter =>
    intro hall
    rw [Step.program_command]
    cases horigin with
    | further command hcommand he =>
      have hhead : command.run.headD "" = Step.interpreterName := by
        rw [List.headD_eq_head?_getD, hall command hcommand (he ▸ rfl)]
        rfl
      rw [he, commandStep, hhead]
      exact if_pos rfl
    | standard _ hmodule =>
      cases haction : step.action with
      | shell program arguments => exact absurd haction (hmodule program arguments)
      | package action => rfl
      | test runner filter => rfl
  case arguments => exact fun workdir => Step.arguments_command step _ _
  case directory => rfl
  case timeout => exact timeoutSeconds_of_mem_steps hstep
  case environment =>
    intro name
    change (job.workflow.environment.set "PIP_CACHE_DIR" _).get? name = _
    by_cases hname : name = "PIP_CACHE_DIR"
    · rw [if_pos hname, hname, Environment.get?_set, hcache]
    · rw [if_neg hname, Environment.get?_set_of_ne _ _ hname, henvironment]
      exact config.environment.get?_toEnvironment name
  case entries =>
    intro hextra
    have hascending : (step.command (Task.context job plan setup)).environment.IsAscending := by
      change (job.workflow.environment.set Task.cacheVariable _).IsAscending
      rw [henvironment]
      exact Environment.isAscending_set
        (config.environment.isAscending_toEnvironment hextra) _ _
    exact ⟨hascending, fun name value => Environment.mem_entries_iff hascending⟩

end WorkflowConfig

end BuildMatrix
