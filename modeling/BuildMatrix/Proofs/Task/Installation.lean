import BuildMatrix.Proofs.FileSystem.Passing
import BuildMatrix.Proofs.Task.Files

/-!
# The step that installs a manifest

One step of a workflow installs what a manifest lists. As long as nothing touches the workspace of
a run until this step has its turn, the manifest that the workspace was staged with decides whether
the step is skipped or from which contents it installs.
-/

namespace BuildMatrix

/-- The step of a run that installs a manifest, with what the run finds in its place and the key of
its cache. -/
structure Installation where
  job : Job
  plan : Plan
  index : Nat
  step : Step
  manifest : String
  found : Option Bytes
  key : Option CacheKey

/-- The workspace of a run that waits for its host, before a step has had its turn. -/
def Stage.untouched? (index : Nat) : Stage → Option Workspace
  | .provisioning _ workspace _ => some workspace
  | .stepping setup _ (.busy results _ _ _ _) =>
    if results.length < index then some setup.workspace else none
  | _ => none

/-- The command of a step that is neither cancelled nor skipped is handed over. -/
theorem Progress.handed_mem_notices {context : RunContext} {reply : Reply} {scene : Scene}
    {results : List StepResult} {step : Step} {rest : List Step} {startedAt : Instant}
    (hc : scene.cancelled = false) (hskip : step.skipReason? scene.files context = none) :
    .handed (step.command context) scene.files ∈
      ((busy results step rest false startedAt).advance context reply scene).notices := by
  simp only [advance, hc, Bool.false_eq_true, if_false, hskip]
  cases reply.output <;> simp [finish]

namespace Installation

variable (i : Installation)

structure IsStep : Prop where
  get : i.job.workflow.steps[i.index]? = some i.step
  action : i.step.action = .package (.installManifest i.manifest)

/-- The command of the step was handed over, when the manifest had these contents. -/
def Installs (entries : List Entry) (contents : Bytes) : Prop :=
  ∃ setup files, Entry.handed (i.step.command (Task.context i.job i.plan setup)) files ∈ entries ∧
    files.read (Path.join setup.workspace.path i.manifest) = .ok contents

/-- How the step may end: what the run finds decides it, unless the step is cancelled. -/
def Decides (entries : List Entry) (outcome : StepOutcome) : Prop :=
  outcome ≠ .cancelled → match i.found with
    | none => outcome = .skipped (.manifestMissing i.manifest)
    | some contents => (∀ reason, outcome ≠ .skipped reason) ∧ i.Installs entries contents

structure Judges (entries : List Entry) (result : StepResult) : Prop where
  step : result.step = i.step.name
  outcome : i.Decides entries result.outcome

def Records (entries : List Entry) (results : List StepResult) : Prop :=
  ∀ result, results[i.index]? = some result → i.Judges entries result

/-- The steps go on as they should. The workspace is as it was staged until the step has had its
turn. -/
def Goes (untouched : Prop) (entries : List Entry) : Progress → Prop
  | .ready results steps => steps = i.job.workflow.steps.drop results.length ∧
    (results.length ≤ i.index → untouched) ∧ i.Records entries results
  | .busy results step rest handed _ =>
    step :: rest = i.job.workflow.steps.drop results.length ∧
    (results.length < i.index ∨ results.length = i.index ∧ handed = false → untouched) ∧
    (results.length = i.index → handed = true →
      ∃ contents, i.found = some contents ∧ i.Installs entries contents) ∧
    i.Records entries results
  | .ended results _ => i.Records entries results
  | .aborted _ => True

/-- A run has come to a stage as it should. -/
def Meets (untouched : Workspace → Prop) (entries : List Entry) : Stage → Prop
  | .provisioning _ workspace _ => untouched workspace
  | .provisioned setup => untouched setup.workspace
  | .lookingUp setup key _ | .restoring setup key _ =>
    some key = i.key ∧ untouched setup.workspace
  | .stepping setup cache progress => cache.map (·.1) = i.key ∧
    i.Goes (untouched setup.workspace) entries progress
  | .packing _ key _ results | .saving _ key _ results _ =>
    some key = i.key ∧ i.Records entries results
  | .closing _ cache results _ => ∀ result, results[i.index]? = some result →
    cache.map (·.1) = i.key ∧ i.Judges entries result
  | .finished run => ∀ result, run.results[i.index]? = some result →
    run.cacheKey = i.key.map CacheKey.render ∧ i.Judges entries result
  | _ => True

section
variable {i : Installation} {entries entries' : List Entry} {results : List StepResult}

theorem Installs.mono {contents : Bytes} (h : i.Installs entries contents)
    (hsub : entries ⊆ entries') : i.Installs entries' contents := by
  obtain ⟨setup, files, hmem, hread⟩ := h
  exact ⟨setup, files, hsub hmem, hread⟩

theorem Judges.mono {result : StepResult} (h : i.Judges entries result)
    (hsub : entries ⊆ entries') : i.Judges entries' result := by
  refine ⟨h.step, fun hc => ?_⟩
  have hdecided := h.outcome hc
  cases hf : i.found with
  | none =>
    rw [hf] at hdecided
    exact hdecided
  | some contents =>
    rw [hf] at hdecided
    exact ⟨hdecided.1, hdecided.2.mono hsub⟩

theorem Records.mono (h : i.Records entries results) (hsub : entries ⊆ entries') :
    i.Records entries' results :=
  fun result hr => (h result hr).mono hsub

theorem Records.concat (h : i.Records entries results) {result : StepResult}
    (hnew : results.length = i.index → i.Judges entries result) :
    i.Records entries (results ++ [result]) := by
  intro other hr
  rcases Nat.lt_trichotomy i.index results.length with hlt | heq | hgt
  · rw [List.getElem?_append_left hlt] at hr
    exact h other hr
  · rw [heq, List.getElem?_concat_length] at hr
    exact Option.some.inj hr ▸ hnew heq.symm
  · rw [List.getElem?_eq_none (by simp; omega)] at hr
    cases hr

theorem Goes.mono {untouched untouched' : Prop} {progress : Progress}
    (h : i.Goes untouched entries progress) (himp : untouched → untouched')
    (hsub : entries ⊆ entries') : i.Goes untouched' entries' progress := by
  cases progress with
  | ready results steps => exact ⟨h.1, fun hle => himp (h.2.1 hle), h.2.2.mono hsub⟩
  | busy results step rest handed startedAt =>
    obtain ⟨hsteps, hcopy, hhanded, hrecords⟩ := h
    refine ⟨hsteps, fun hlt => himp (hcopy hlt), fun hindex hh => ?_, hrecords.mono hsub⟩
    obtain ⟨contents, hf, hinstalls⟩ := hhanded hindex hh
    exact ⟨contents, hf, hinstalls.mono hsub⟩
  | ended results status => exact Records.mono h hsub
  | aborted message => exact trivial

theorem Meets.mono {untouched untouched' : Workspace → Prop} {stage : Stage}
    (h : i.Meets untouched entries stage)
    (himp : ∀ workspace, stage.workspace? = some workspace → untouched workspace →
      untouched' workspace)
    (hsub : entries ⊆ entries') : i.Meets untouched' entries' stage := by
  cases stage with
  | provisioning version workspace asked => exact himp workspace rfl h
  | provisioned setup => exact himp _ rfl h
  | lookingUp setup key stems => exact ⟨h.1, himp _ rfl h.2⟩
  | restoring setup key found => exact ⟨h.1, himp _ rfl h.2⟩
  | stepping setup cache progress => exact ⟨h.1, h.2.mono (himp _ rfl) hsub⟩
  | packing setup key status results => exact ⟨h.1, h.2.mono hsub⟩
  | saving setup key status results payload => exact ⟨h.1, h.2.mono hsub⟩
  | closing workspace cache results status =>
    exact fun result hr => ⟨(h result hr).1, (h result hr).2.mono hsub⟩
  | finished run => exact fun result hr => ⟨(h result hr).1, (h result hr).2.mono hsub⟩
  | _ => exact trivial

end

section
variable {i : Installation} {entries entries' : List Entry}

theorem conclude_ne_skipped (step : Step) (command : Command) (result : Except RunnerError Output)
    (reason : SkipReason) : (step.conclude command result).1 ≠ .skipped reason := by
  cases result with
  | error e => simp [Step.conclude]
  | ok output =>
    simp only [Step.conclude]
    split <;> simp

/-- The step is skipped if the run finds nothing in the place of the manifest, and only then. -/
theorem skipReason?_eq (hstep : i.IsStep) {files : FileSystem} {context : RunContext}
    (hlooks : (files.read (Path.join context.directory i.manifest)).toOption = i.found) :
    i.step.skipReason? files context =
      if i.found.isSome then none else some (.manifestMissing i.manifest) := by
  have hfile : files.isFile (Path.join context.directory i.manifest) = i.found.isSome := by
    rw [Bool.eq_iff_iff, FileSystem.isFile_iff_read, ← hlooks]
    cases files.read (Path.join context.directory i.manifest) <;> simp [Except.toOption]
  rw [Step.skipReason?, hstep.action]
  simp only [hfile]

theorem found_of_skipReason? (hstep : i.IsStep) {files : FileSystem} {context : RunContext}
    (hskip : i.step.skipReason? files context = none)
    (hlooks : (files.read (Path.join context.directory i.manifest)).toOption = i.found) :
    ∃ contents, i.found = some contents ∧
      files.read (Path.join context.directory i.manifest) = .ok contents := by
  rw [skipReason?_eq hstep hlooks] at hskip
  rw [← hlooks] at hskip ⊢
  cases hread : files.read (Path.join context.directory i.manifest) with
  | error e => simp [hread, Except.toOption] at hskip
  | ok contents => exact ⟨contents, rfl, rfl⟩

theorem decides_of_skipped (hstep : i.IsStep) {files : FileSystem} {context : RunContext}
    {reason : SkipReason} (hskip : i.step.skipReason? files context = some reason)
    (hlooks : (files.read (Path.join context.directory i.manifest)).toOption = i.found) :
    i.Decides entries (.skipped reason) := by
  intro _
  rw [skipReason?_eq hstep hlooks] at hskip
  cases hf : i.found with
  | none =>
    rw [hf] at hskip
    exact congrArg StepOutcome.skipped (Option.some.inj hskip).symm
  | some contents => simp [hf] at hskip

theorem decides_of_installs {contents : Bytes} (hf : i.found = some contents)
    (h : i.Installs entries contents) (command : Command) (result : Except RunnerError Output) :
    i.Decides entries (i.step.conclude command result).1 := by
  intro _
  rw [hf]
  exact ⟨conclude_ne_skipped _ _ result, h⟩

section
variable {setup : Setup} {reply : Reply} {scene : Scene} {results : List StepResult} {step : Step}
  {rest : List Step} {handed : Bool} {startedAt : Instant}
  (hsteps : step :: rest = i.job.workflow.steps.drop results.length)
include hsteps

theorem eq_step (hstep : i.IsStep) (hindex : results.length = i.index) : step = i.step := by
  have hget := hstep.get
  rw [← hindex, ← List.head?_drop, ← hsteps, List.head?_cons] at hget
  exact Option.some.inj hget

/-- The steps go on after one of them has ended. -/
theorem goes_finish (hstep : i.IsStep) {untouched : Prop} {outcome : StepOutcome} {output : String}
    {notices : List Notice} (hcopy : results.length < i.index → untouched)
    (hrecords : i.Records entries results)
    (hdecides : results.length = i.index → i.Decides entries outcome) :
    i.Goes untouched entries
      (Progress.finish results step rest startedAt outcome output scene notices).progress := by
  have hrest : rest = i.job.workflow.steps.drop
      (results ++ [step.record outcome output startedAt scene.clock]).length := by
    rw [List.length_append, List.length_singleton, ← List.drop_drop, ← hsteps]
    rfl
  have hcopy' (hle : (results ++ [step.record outcome output startedAt scene.clock]).length ≤
      i.index) : untouched := by
    rw [List.length_append, List.length_singleton] at hle
    exact hcopy hle
  have hrecords' : i.Records entries
      (results ++ [step.record outcome output startedAt scene.clock]) :=
    hrecords.concat fun hindex => ⟨by rw [eq_step hsteps hstep hindex]; rfl, hdecides hindex⟩
  cases outcome with
  | succeeded => exact ⟨hrest, hcopy', hrecords'⟩
  | skipped reason => exact ⟨hrest, hcopy', hrecords'⟩
  | failed failure => exact hrecords'
  | cancelled => exact hrecords'

theorem goes_answered (hstep : i.IsStep) {untouched : FileSystem → Prop}
    (hrecords : i.Records entries results)
    (hinstalls : results.length = i.index →
      ∃ contents, i.found = some contents ∧ i.Installs entries contents)
    (hleft : results.length < i.index → untouched (reply.files scene.files))
    {context : RunContext} (hc : scene.cancelled = false)
    (hskip : (if handed then none else step.skipReason? scene.files context) = none) :
    i.Goes (untouched ((Progress.busy results step rest handed startedAt).advance context reply
        scene).scene.files) entries
      ((Progress.busy results step rest handed startedAt).advance context reply
        scene).progress := by
  simp only [Progress.advance, hc, Bool.false_eq_true, if_false, hskip]
  cases reply.output with
  | pending =>
    exact ⟨hsteps, fun hlt => hleft (by simpa using hlt), fun hindex _ => hinstalls hindex,
      hrecords⟩
  | panicked message => exact trivial
  | ready result =>
    refine goes_finish hsteps hstep hleft hrecords fun hindex => ?_
    obtain ⟨contents, hf, hinstalled⟩ := hinstalls hindex
    obtain rfl := eq_step hsteps hstep hindex
    exact decides_of_installs hf hinstalled _ result

end

theorem goes_advance (hstep : i.IsStep) (untouched : FileSystem → Prop) {setup : Setup}
    {reply : Reply} {scene : Scene} {progress : Progress}
    (h : i.Goes (untouched scene.files) entries progress)
    (hlooks : untouched scene.files →
      (scene.files.read (Path.join setup.workspace.path i.manifest)).toOption = i.found)
    (hreply : ∀ results step rest handed startedAt,
      progress = .busy results step rest handed startedAt → results.length < i.index →
      untouched scene.files → untouched (reply.files scene.files))
    (hsub : entries ⊆ entries')
    (hnew : ∀ notice ∈ (progress.advance (Task.context i.job i.plan setup) reply scene).notices,
      Task.entryOf i.plan notice ∈ entries') :
    i.Goes (untouched (progress.advance (Task.context i.job i.plan setup) reply scene).scene.files)
      entries' (progress.advance (Task.context i.job i.plan setup) reply scene).progress := by
  cases progress with
  | ready results steps =>
    obtain ⟨hsteps, hcopy, hrecords⟩ := h
    cases steps with
    | nil => exact hrecords.mono hsub
    | cons step rest =>
      simp only [Progress.advance]
      split
      · exact hrecords.mono hsub
      · exact ⟨hsteps, fun hle => hcopy (by omega), fun _ hh => by simp at hh, hrecords.mono hsub⟩
  | busy results step rest handed startedAt =>
    obtain ⟨hsteps, hcopy, hhanded, hrecords⟩ := h
    replace hrecords := hrecords.mono hsub
    by_cases hcancelled : scene.cancelled
    · simp only [Progress.advance, hcancelled, if_true]
      exact goes_finish hsteps hstep (fun hlt => hcopy (.inl hlt)) hrecords
        fun _ hne => absurd rfl hne
    have hc : scene.cancelled = false := by simpa using hcancelled
    cases hskip : (if handed then none
      else step.skipReason? scene.files (Task.context i.job i.plan setup)) with
    | some reason =>
      obtain ⟨rfl, hreason⟩ : handed = false ∧
          step.skipReason? scene.files (Task.context i.job i.plan setup) = some reason := by
        cases handed <;> simp_all
      simp only [Progress.advance, hc, Bool.false_eq_true, if_false, hreason]
      refine goes_finish hsteps hstep (fun hlt => hcopy (.inl hlt)) hrecords fun hindex => ?_
      obtain rfl := eq_step hsteps hstep hindex
      exact decides_of_skipped hstep hreason (hlooks (hcopy (.inr ⟨hindex, rfl⟩)))
    | none =>
      -- The command was handed over in an earlier turn, or is in this one.
      have hinstalls (hindex : results.length = i.index) :
          ∃ contents, i.found = some contents ∧ i.Installs entries' contents := by
        cases handed with
        | true =>
          obtain ⟨contents, hf, hinstalls⟩ := hhanded hindex rfl
          exact ⟨contents, hf, hinstalls.mono hsub⟩
        | false =>
          obtain rfl := eq_step hsteps hstep hindex
          obtain ⟨contents, hf, hread⟩ :=
            found_of_skipReason? hstep hskip (hlooks (hcopy (.inr ⟨hindex, rfl⟩)))
          exact ⟨contents, hf, setup, scene.files,
            hnew _ (Progress.handed_mem_notices hc hskip), hread⟩
      have hleft (hlt : results.length < i.index) : untouched (reply.files scene.files) :=
        hreply results step rest handed startedAt rfl hlt (hcopy (.inl hlt))
      exact goes_answered hsteps hstep hrecords hinstalls hleft hc hskip
  | ended results status => exact Records.mono h hsub
  | aborted message => exact trivial

theorem meets_afterSteps {untouched : Workspace → Prop} {setup : Setup} {cache : RestoredCache}
    {progress : Progress} (hkey : cache.map (·.1) = i.key)
    (h : i.Goes (untouched setup.workspace) entries progress) :
    i.Meets untouched entries (Task.afterSteps setup cache progress) := by
  unfold Task.afterSteps
  split
  · split
    · exact fun result hr => ⟨hkey, h result hr⟩
    · exact fun result hr => ⟨hkey, h result hr⟩
    · exact ⟨hkey, h⟩
  · exact fun result hr => ⟨hkey, h result hr⟩
  · exact trivial
  · exact ⟨hkey, h⟩

theorem goes_start {untouched : Prop} (h : untouched) :
    i.Goes untouched entries (.start i.job.workflow.steps) :=
  ⟨rfl, fun _ => h, fun result hr => by simp at hr⟩

/-- One turn of the run, given what the look-ups find, that the workspace is staged untouched, and
that neither what is restored nor the host touches it. -/
theorem meets_turn (hstep : i.IsStep) (untouched : FileSystem → Workspace → Prop) {task : Task}
    {reply : Reply} {shared : Shared} (hplan : task.plan = i.plan)
    (hlooks : ∀ workspace, task.stage.workspace? = some workspace →
      untouched shared.scene.files workspace →
      (shared.scene.files.read (Path.join workspace.path i.manifest)).toOption = i.found)
    (hkey : (i.job.workflow.cache.keyFor shared.scene.files i.job.directory).toOption = i.key)
    (hstaged : ∀ files workspace,
      Workspace.stage shared.scene.files i.job.temporary i.job.directory i.plan =
        (files, .ok workspace) → untouched files workspace)
    (hrestored : ∀ (found : Resolution) workspace, task.stage.workspace? = some workspace →
      untouched shared.scene.files workspace → untouched (found.restore shared.scene.files
        (i.job.workflow.cache.directoryFor i.plan)).1 workspace)
    (hreply : ∀ workspace, task.stage.untouched? i.index = some workspace →
      untouched shared.scene.files workspace →
      untouched (reply.files shared.scene.files) workspace)
    (h : i.Meets (untouched shared.scene.files) entries task.stage) (hsub : entries ⊆ entries')
    (hnew : ∀ entry ∈ (task.turn i.job reply shared).entries, entry ∈ entries') :
    i.Meets (untouched (task.turn i.job reply shared).shared.scene.files) entries'
      (task.turn i.job reply shared).stage := by
  have htakes := Task.takes_turn i.job reply shared task
  generalize task.turn i.job reply shared = turn at htakes hnew ⊢
  generalize task.stage = stage at htakes hlooks hrestored hreply h ⊢
  have hsteps {setup : Setup} {cache : RestoredCache} {progress : Progress}
      (hs : stage = .stepping setup cache progress)
      (hnotices : ∀ notice ∈ (progress.advance (Task.context i.job task.plan setup) reply
        shared.scene).notices, Task.entryOf task.plan notice ∈ entries') :
      i.Goes (untouched (progress.advance (Task.context i.job task.plan setup) reply
        shared.scene).scene.files setup.workspace) entries'
        (progress.advance (Task.context i.job task.plan setup) reply shared.scene).progress := by
    subst hs
    rw [hplan] at hnotices ⊢
    refine goes_advance hstep (untouched · setup.workspace) h.2 (hlooks setup.workspace rfl) ?_
      hsub hnotices
    rintro results step rest handed startedAt rfl hlt
    exact hreply setup.workspace (by simp [Stage.untouched?, hlt])
  cases htakes with
  | staged version files workspace hs => exact hstaged files workspace (hplan ▸ hs)
  | provisioningWaits version workspace asked => exact hreply workspace rfl h
  | provisioned version workspace asked toolchain => exact hreply workspace rfl h
  | withoutKey setup e hk =>
    rw [hk] at hkey
    exact ⟨hkey, goes_start h⟩
  | withKey setup key hk =>
    rw [hk] at hkey
    exact ⟨hkey, h⟩
  | found setup key entry => exact h
  | notFound setup key => exact h
  | missed setup key => exact h
  | foundOther setup key stem stems entry => exact h
  | notFoundOther setup key stem stems => exact h
  | restored setup key found files status hr =>
    have huntouched := hrestored found setup.workspace rfl h.2
    rw [← hplan, hr] at huntouched
    exact ⟨h.1, goes_start huntouched⟩
  | stepped setup cache progress turn' hturn =>
    subst hturn
    refine meets_afterSteps h.1 (hsteps rfl fun notice hn => hnew _ ?_)
    exact List.mem_map_of_mem hn
  | stepPanics setup cache progress turn' message hturn hpanics => exact trivial
  | packed setup key status results payload => exact ⟨h.1, h.2.mono hsub⟩
  | notPacked setup key status results e =>
    exact fun result hr => ⟨h.1, (h.2 result hr).mono hsub⟩
  | saved setup key status results payload store outcome =>
    exact fun result hr => ⟨h.1, (h.2 result hr).mono hsub⟩
  | notSaved setup key status results payload e =>
    exact fun result hr => ⟨h.1, (h.2 result hr).mono hsub⟩
  | closed workspace cache results status =>
    intro result hr
    obtain ⟨hkey, hjudges⟩ := h result hr
    refine ⟨?_, hjudges.mono hsub⟩
    simp [Task.record, ← hkey, Function.comp_def]
  | ended stage hover => exact h.mono (fun _ _ => id) hsub
  | _ => first | exact trivial | exact fun result hr => by simp at hr

end

end Installation

end BuildMatrix
