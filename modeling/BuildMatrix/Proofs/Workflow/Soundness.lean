import BuildMatrix.CommandLine.Commands
import BuildMatrix.Proofs.Matrix.Expansion
import BuildMatrix.Proofs.Workflow.Validation

/-!
# Workflows of valid configurations

A workflow can only be had from a valid configuration. Whatever the runs of a workflow could still
fail to find is there: a version for each plan, a program for each command, a filter for the tests.
-/

namespace BuildMatrix

/-- What is right about a workflow for the configuration that it was made from. -/
structure Workflow.Sound (workflow : Workflow) (config : WorkflowConfig) : Prop where
  /-- Each plan selects an interpreter, so a run that begins and is not cancelled is staged. -/
  version : ∀ plan ∈ workflow.plans, ∃ version, workflow.versionFor? plan = some version ∧
    ∀ (job : Job) (reply : Reply) (shared : Shared) (now : Instant), job.workflow = workflow →
      shared.scene.cancelled = false →
      Task.turn job reply shared ⟨plan, now, .begun⟩ = ⟨.staging version, shared, []⟩
  names : workflow.steps.map (·.name) =
    ["upgrade-pip", "install-requirements", "install-test-runner"]
      ++ config.commands.map (·.name) ++ ["run-tests", "verify-install"]
  distinct : (workflow.steps.map (·.name)).Nodup
  timeouts : ∀ step ∈ workflow.steps, step.timeoutSeconds = config.stepTimeoutSeconds
  timeout : config.stepTimeoutSeconds ≠ 0
  /-- The program of a command is the head of what it runs, which is there. -/
  commands : ∀ (n : Nat) (command : CommandConfig), config.commands[n]? = some command →
    ∃ program arguments, command.run = program :: arguments ∧
      workflow.steps[n + 3]? = some
        ⟨command.name, .runTests, .shell program arguments, config.stepTimeoutSeconds⟩
  tests : ∃ filter, TestFilter.excluding config.test.excludedTags = .ok filter ∧
    (∀ tag ∈ filter.excluded, TestFilter.isTag tag.toList) ∧
    workflow.steps[config.commands.length + 3]? = some
      ⟨"run-tests", .runTests, .test config.test.runner filter, config.stepTimeoutSeconds⟩

namespace WorkflowConfig

variable {config : WorkflowConfig} {workflow : Workflow} {home : String}

theorem names_steps (config : WorkflowConfig) (filter : TestFilter) :
    (config.steps filter).map (·.name) =
      ["upgrade-pip", "install-requirements", "install-test-runner"]
        ++ config.commands.map (·.name) ++ ["run-tests", "verify-install"] := by
  have hcommands (timeout : UInt64) : (config.commands.map (commandStep timeout)).map (·.name) =
      config.commands.map (·.name) := by
    rw [List.map_map]
    rfl
  rw [steps, List.map_append, List.map_append, hcommands]
  rfl

theorem distinct_names_steps (h : Commands [] config.commands) (filter : TestFilter) :
    ((config.steps filter).map (·.name)).Nodup := by
  have hstandard {name : String} (hmem : name ∈ standardStepNames) :
      name ∉ config.commands.map (·.name) := by
    intro hcommand
    obtain ⟨command, hcommand, hname⟩ := List.mem_map.mp hcommand
    exact h.unreserved command hcommand (hname ▸ hmem)
  rw [names_steps, List.nodup_append, List.nodup_append]
  refine ⟨⟨by decide, h.distinct, ?_⟩, by decide, ?_⟩
  · intro name hname other hother he
    have hlead : name ∈ standardStepNames :=
      (by decide : ∀ n ∈ ["upgrade-pip", "install-requirements", "install-test-runner"],
        n ∈ standardStepNames) name hname
    exact hstandard hlead (he ▸ hother)
  · intro name hname other hother he
    have hlast : other ∈ standardStepNames :=
      (by decide : ∀ n ∈ ["run-tests", "verify-install"], n ∈ standardStepNames) other hother
    cases List.mem_append.mp hname with
    | inl hlead =>
      have hapart : ∀ n ∈ ["upgrade-pip", "install-requirements", "install-test-runner"],
          ∀ m ∈ ["run-tests", "verify-install"], n ≠ m := by decide
      exact hapart name hlead other hother he
    | inr hcommand => exact hstandard hlast (he ▸ hcommand)

theorem timeoutSeconds_of_mem_steps {filter : TestFilter} {step : Step}
    (h : step ∈ config.steps filter) : step.timeoutSeconds = config.stepTimeoutSeconds := by
  simp only [steps, List.mem_append, List.mem_cons, List.not_mem_nil, or_false, List.mem_map] at h
  rcases h with ((rfl | rfl | rfl) | ⟨command, -, rfl⟩) | rfl | rfl
  all_goals rfl

theorem getElem?_steps_command (config : WorkflowConfig) (filter : TestFilter) {n : Nat}
    {command : CommandConfig} (h : config.commands[n]? = some command) :
    (config.steps filter)[n + 3]? = some (commandStep config.stepTimeoutSeconds command) := by
  have hlt : n < config.commands.length := (List.getElem?_eq_some_iff.mp h).1
  rw [steps, List.append_assoc, List.getElem?_append_right (by simp),
    List.getElem?_append_left (by simpa using hlt)]
  simp [h]

theorem getElem?_steps_tests (config : WorkflowConfig) (filter : TestFilter) :
    (config.steps filter)[config.commands.length + 3]? = some
      ⟨"run-tests", .runTests, .test config.test.runner filter, config.stepTimeoutSeconds⟩ := by
  rw [steps, List.getElem?_append_right (by simp)]
  simp

theorem sound_of_toWorkflow (h : config.toWorkflow home = .ok workflow) :
    workflow.Sound config := by
  obtain ⟨-, axes, exclusions, filter, hreads, hmatrix, hversion, -, hsteps⟩ :=
    reads_of_toWorkflow h
  have hfilter := excluding_of_testFilter hreads.readsFilter
  constructor
  case version =>
    intro plan hplan
    have hne : axes ≠ [] := by
      have haxes := Matrix.axes_ne_nil_of_mem_expand hplan
      rwa [hmatrix] at haxes
    have haxis : workflow.versionAxis ∈ workflow.matrix.axes.map (·.name) := by
      rw [hmatrix, hversion]
      exact hreads.versionAxis hne
    obtain ⟨version, hget⟩ := Matrix.get?_of_mem_expand hplan haxis
    refine ⟨version, hget, fun job reply shared now hjob hcancelled => ?_⟩
    have hjobVersion : job.workflow.versionFor? plan = some version := by
      rw [hjob]
      exact hget
    simp only [Task.turn, hcancelled, Bool.false_eq_true, if_false, hjobVersion]
  case names =>
    rw [hsteps]
    exact names_steps config filter
  case distinct =>
    rw [hsteps]
    exact distinct_names_steps hreads.commands filter
  case timeouts =>
    rw [hsteps]
    exact fun step hstep => timeoutSeconds_of_mem_steps hstep
  case timeout => exact hreads.timeout
  case commands =>
    intro n command hcommand
    have hmem : command ∈ config.commands := List.mem_of_getElem? hcommand
    obtain ⟨program, arguments, hrun⟩ :=
      List.exists_cons_of_ne_nil (hreads.commands.runs command hmem)
    refine ⟨program, arguments, hrun, ?_⟩
    rw [hsteps, getElem?_steps_command config filter hcommand, commandStep, hrun]
    rfl
  case tests =>
    refine ⟨filter, hfilter, (TestFilter.wellFormed_of_excluding hfilter).tags, ?_⟩
    rw [hsteps]
    exact getElem?_steps_tests config filter

/-- The one way from a configuration to a workflow is through its checks. -/
theorem toWorkflow_spec (config : WorkflowConfig) (home : String) :
    match config.validate with
    | .error e => config.toWorkflow home = .error e
    | .ok () => ∃ workflow, config.toWorkflow home = .ok workflow ∧ workflow.Sound config := by
  cases hvalid : config.validate with
  | error e => exact toWorkflow_eq_error hvalid home
  | ok u =>
    obtain ⟨axes, exclusions, filter, hreads⟩ := reads_of_validate hvalid
    have hworkflow := toWorkflow_eq_ok hvalid hreads home
    exact ⟨_, hworkflow, sound_of_toWorkflow hworkflow⟩

theorem validate_of_load {files : FileSystem} {file : Option String}
    (h : load files file = .ok config) : config.validate = .ok () := by
  unfold load at h
  split at h
  · cases h
    decide
  · split at h
    · cases h
    · next text _ =>
        split at h
        · next hread =>
            cases h
            unfold ofText at hread
            split at hread
            · cases hread
            · split at hread
              · next hvalid =>
                  cases hread
                  exact hvalid
              · cases hread
        · cases h

end WorkflowConfig

namespace CommandLine

variable (situation : Situation) {files : FileSystem} {file : Option String}

theorem loadWorkflow_of_load_error {e : LoadError}
    (h : WorkflowConfig.load files file = .error e) :
    loadWorkflow situation files file = .error e.chain := by
  rw [loadWorkflow, h]
  rfl

theorem loadWorkflow_of_load {config : WorkflowConfig}
    (h : WorkflowConfig.load files file = .ok config) :
    ∃ workflow, config.toWorkflow situation.home = .ok workflow ∧
      loadWorkflow situation files file = .ok workflow := by
  have hspec := config.toWorkflow_spec situation.home
  rw [WorkflowConfig.validate_of_load h] at hspec
  obtain ⟨workflow, hworkflow, -⟩ := hspec
  refine ⟨workflow, hworkflow, ?_⟩
  rw [loadWorkflow, h]
  change (config.toWorkflow situation.home).mapError ConfigError.chain = _
  rw [hworkflow]
  rfl

/-- The line by which a file is accepted. -/
def validLine (d : Console.Display) : String :=
  d.icon .check ++ " Workflow configuration is valid!"

theorem validLine_ne_failed (d : Console.Display) :
    d.icon .cross ++ " Validation failed:" ≠ validLine d := by
  cases d with
  | mk colors pictographs =>
    cases colors <;> cases pictographs <;> decide

theorem lines_validate_of_load {config : WorkflowConfig} {path : String}
    (h : WorkflowConfig.load files (some path) = .ok config) (json : Bool) :
    (validate situation files path json).lines[1]? = some (validLine situation.display) := by
  obtain ⟨workflow, hworkflow, -⟩ := loadWorkflow_of_load situation h
  simp only [validate, h, hworkflow]
  cases json with
  | false => rfl
  | true =>
    cases config.toJson? with
    | none => rfl
    | some written => rfl

theorem exitCode_validate_of_load {config : WorkflowConfig} {path : String}
    (h : WorkflowConfig.load files (some path) = .ok config) :
    (validate situation files path false).exitCode = 0 := by
  obtain ⟨workflow, hworkflow, -⟩ := loadWorkflow_of_load situation h
  simp only [validate, h, hworkflow]
  rfl

theorem exitCode_validate_json_of_load {config : WorkflowConfig} {path : String}
    (h : WorkflowConfig.load files (some path) = .ok config) :
    (validate situation files path true).exitCode = 0 ↔ config.toJson?.isSome := by
  obtain ⟨workflow, hworkflow, -⟩ := loadWorkflow_of_load situation h
  simp only [validate, h, hworkflow]
  cases config.toJson? with
  | none => exact ⟨fun he => (nomatch he), fun he => (nomatch he)⟩
  | some written => exact ⟨fun _ => rfl, fun _ => rfl⟩

theorem validate_of_load_error {path : String} {e : LoadError}
    (h : WorkflowConfig.load files (some path) = .error e) (json : Bool) :
    (validate situation files path json).exitCode = 1 ∧
      (validate situation files path json).lines[1]? ≠ some (validLine situation.display) := by
  have hexit : (validate situation files path json).exitCode = 1 := by
    simp only [validate, h]
  refine ⟨hexit, fun he => ?_⟩
  simp only [validate, h] at he
  exact validLine_ne_failed _ (Option.some.inj he)

/--
A configuration describes a workflow exactly if it is valid, fails for the same reason otherwise,
and its workflow is sound. A file is therefore accepted exactly if its workflow can be loaded. The
verdict is the same if the configuration is also to be written as JSON; what cannot be written
makes the command fail after it.
-/
theorem accepts_exactly_what_loads :
    (∀ (config : WorkflowConfig) (home : String),
      match config.validate with
      | .error e => config.toWorkflow home = .error e
      | .ok () => ∃ workflow, config.toWorkflow home = .ok workflow ∧ workflow.Sound config) ∧
    ∀ (situation : Situation) (files : FileSystem) (path : String),
      ((validate situation files path false).exitCode = 0 ↔
        ∃ workflow, loadWorkflow situation files (some path) = .ok workflow) ∧
      (∀ json, (validate situation files path json).lines[1]? = some (validLine situation.display) ↔
        ∃ workflow, loadWorkflow situation files (some path) = .ok workflow) ∧
      ((validate situation files path true).exitCode = 0 ↔
        ∃ config, WorkflowConfig.load files (some path) = .ok config ∧ config.toJson?.isSome) := by
  refine ⟨fun config home => config.toWorkflow_spec home, fun situation files path => ?_⟩
  cases hload : WorkflowConfig.load files (some path) with
  | ok config =>
    obtain ⟨workflow, -, hworkflow⟩ := loadWorkflow_of_load situation hload
    refine ⟨?_, fun json => ?_, ?_⟩
    · exact iff_of_true (exitCode_validate_of_load situation hload) ⟨workflow, hworkflow⟩
    · exact iff_of_true (lines_validate_of_load situation hload json) ⟨workflow, hworkflow⟩
    · rw [exitCode_validate_json_of_load situation hload]
      exact ⟨fun hjson => ⟨config, rfl, hjson⟩, fun ⟨_, he, hjson⟩ => Except.ok.inj he ▸ hjson⟩
  | error e =>
    have hnone : ¬∃ workflow, loadWorkflow situation files (some path) = .ok workflow := by
      intro hsome
      obtain ⟨workflow, hworkflow⟩ := hsome
      rw [loadWorkflow_of_load_error situation hload] at hworkflow
      cases hworkflow
    have hexit (json : Bool) : (validate situation files path json).exitCode ≠ 0 := by
      rw [(validate_of_load_error situation hload json).1]
      decide
    refine ⟨iff_of_false (hexit false) hnone, fun json => ?_, iff_of_false (hexit true) ?_⟩
    · exact iff_of_false (validate_of_load_error situation hload json).2 hnone
    · intro hsome
      obtain ⟨config, he, -⟩ := hsome
      cases he

end CommandLine

end BuildMatrix
