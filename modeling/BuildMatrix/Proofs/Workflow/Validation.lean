import BuildMatrix.Proofs.TestFilter.RoundTrip
import BuildMatrix.Workflow.Basic

/-!
# What the checks of a configuration establish

A check that passes leaves a fact behind. The facts are gathered here, so that what follows from a
valid configuration does not depend on the order of the checks.
-/

namespace BuildMatrix.WorkflowConfig

theorem bind_eq_ok {ε α β : Type} {first : Except ε α} {next : α → Except ε β} {result : β} :
    (first >>= next) = .ok result ↔ ∃ a, first = .ok a ∧ next a = .ok result := by
  cases first with
  | error e => exact ⟨fun h => (nomatch h), fun ⟨_, h, _⟩ => (nomatch h)⟩
  | ok a => exact ⟨fun h => ⟨a, rfl, h⟩, fun ⟨_, he, h⟩ => by cases he; exact h⟩

theorem check_eq_ok {isFaulty : Bool} {fault : ConfigError} {u : Unit} :
    check isFaulty fault = .ok u ↔ isFaulty = false := by
  unfold check
  cases isFaulty with
  | false => simp
  | true => simp

/-- What is true of commands that pass their checks, after commands with earlier names. -/
structure Commands (earlier : List String) (commands : List CommandConfig) : Prop where
  runs : ∀ command ∈ commands, command.run ≠ []
  unreserved : ∀ command ∈ commands, command.name ∉ standardStepNames
  fresh : ∀ command ∈ commands, command.name ∉ earlier
  distinct : (commands.map (·.name)).Nodup

theorem commands_of_checkCommands {earlier : List String} {commands : List CommandConfig}
    (h : checkCommands earlier commands = .ok ()) : Commands earlier commands := by
  induction commands generalizing earlier with
  | nil => exact ⟨by simp, by simp, by simp, by simp⟩
  | cons command rest ih =>
    simp only [checkCommands, bind_eq_ok, check_eq_ok] at h
    obtain ⟨-, hrun, -, hreserved, -, hearlier, hrest⟩ := h
    have hcommands := ih hrest
    constructor
    · intro other hother
      cases List.mem_cons.mp hother with
      | inl he => exact he ▸ List.isEmpty_eq_false_iff.mp hrun
      | inr hmem => exact hcommands.runs other hmem
    · intro other hother
      cases List.mem_cons.mp hother with
      | inl he => exact fun hmem => by simp [he ▸ hmem] at hreserved
      | inr hmem => exact hcommands.unreserved other hmem
    · intro other hother
      cases List.mem_cons.mp hother with
      | inl he => exact fun hmem => by simp [he ▸ hmem] at hearlier
      | inr hmem => exact fun hold => hcommands.fresh other hmem (List.mem_cons_of_mem _ hold)
    · refine List.nodup_cons.mpr ⟨fun hmem => ?_, hcommands.distinct⟩
      obtain ⟨other, hother, hname⟩ := List.mem_map.mp hmem
      exact hcommands.fresh other hother (hname ▸ List.mem_cons_self)

/-- What a valid configuration fulfils, with what its matrix and its tags are read as. -/
structure Reads (config : WorkflowConfig) (axes : List Axis) (exclusions : List Exclusion)
    (filter : TestFilter) : Prop where
  readsAxes : config.axes = .ok axes
  readsExclusions : config.exclusions = .ok exclusions
  readsFilter : config.testFilter = .ok filter
  versionAxis : axes ≠ [] → config.versionAxis ∈ axes.map (·.name)
  manifest : Text.isBlankText config.cache.manifest = false
  commands : Commands [] config.commands
  timeout : config.stepTimeoutSeconds ≠ 0

variable {config : WorkflowConfig}

theorem reads_of_validate (h : config.validate = .ok ()) :
    ∃ axes exclusions filter, config.Reads axes exclusions filter := by
  simp only [validate, bind_eq_ok, check_eq_ok] at h
  obtain ⟨-, -, -, -, axes, haxes, -, hversion, exclusions, hexclusions, -, -, -, hmanifest, -, -,
    -, -, -, -, _, hdiscard, _, hcommands, htimeout⟩ := h
  have hfilter : ∃ filter, config.testFilter = .ok filter := by
    cases hread : config.testFilter with
    | ok filter => exact ⟨filter, rfl⟩
    | error e =>
      rw [hread] at hdiscard
      cases hdiscard
  obtain ⟨filter, hfilter⟩ := hfilter
  have hversion : axes ≠ [] → config.versionAxis ∈ axes.map (·.name) := by
    intro hne
    simpa [hne] using hversion
  exact ⟨axes, exclusions, filter, haxes, hexclusions, hfilter, hversion, hmanifest,
    commands_of_checkCommands hcommands, by simpa using htimeout⟩

theorem toWorkflow_eq_error {e : ConfigError} (h : config.validate = .error e) (home : String) :
    config.toWorkflow home = .error e := by
  rw [toWorkflow, h]
  rfl

/-- The workflow that a valid configuration describes: reading it again raises nothing. -/
theorem toWorkflow_eq_ok {axes : List Axis} {exclusions : List Exclusion} {filter : TestFilter}
    (hvalid : config.validate = .ok ()) (h : config.Reads axes exclusions filter) (home : String) :
    config.toWorkflow home = .ok {
      name := config.name
      triggers := config.triggers.events
      matrix := ⟨axes, exclusions⟩
      versionAxis := config.versionAxis
      cache := config.cachePolicy home
      environment := config.environment.toEnvironment
      steps := config.steps filter } := by
  rw [toWorkflow, hvalid, h.readsAxes, h.readsExclusions, h.readsFilter]
  rfl

theorem reads_of_toWorkflow {home : String} {workflow : Workflow}
    (h : config.toWorkflow home = .ok workflow) :
    config.validate = .ok () ∧ ∃ axes exclusions filter, config.Reads axes exclusions filter ∧
      workflow.matrix = ⟨axes, exclusions⟩ ∧ workflow.versionAxis = config.versionAxis ∧
      workflow.cache = config.cachePolicy home ∧ workflow.steps = config.steps filter := by
  cases hvalid : config.validate with
  | error e =>
    rw [toWorkflow_eq_error hvalid] at h
    cases h
  | ok u =>
    obtain ⟨axes, exclusions, filter, hreads⟩ := reads_of_validate hvalid
    rw [toWorkflow_eq_ok hvalid hreads] at h
    cases h
    exact ⟨rfl, axes, exclusions, filter, hreads, rfl, rfl, rfl, rfl⟩

theorem excluding_of_testFilter {filter : TestFilter} (h : config.testFilter = .ok filter) :
    TestFilter.excluding config.test.excludedTags = .ok filter := by
  unfold testFilter at h
  split at h
  · next hexcluding =>
      cases h
      exact hexcluding
  · cases h

end BuildMatrix.WorkflowConfig
