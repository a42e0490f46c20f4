import BuildMatrix.Proofs.Progress.Account
import BuildMatrix.Proofs.Task.Turn
import BuildMatrix.Proofs.Workspace.Manifest

/-!
# Foreseen runs

A run is foreseen from what the host answers to it alone: the interpreter that it is given, the
result of each of its commands and what this command leaves in its workspace. Nothing else decides
which steps are skipped, how they end and with which status the run ends.
-/

namespace BuildMatrix

/-- What the record of a step tells apart from its times. -/
structure Outline where
  step : String
  phase : Phase
  outcome : StepOutcome
  output : String
deriving DecidableEq, Repr

def StepResult.outline (result : StepResult) : Outline :=
  ⟨result.step, result.phase, result.outcome, result.output⟩

/-- What the host answers to one run. -/
structure Treatment where
  toolchain : Except ProvisionError Toolchain
  /-- The result of the command of each step, and the workspace that it leaves. -/
  answers : Nat → Except RunnerError Output
  left : Nat → Node

/-- A run of a plan, with the links and bytes that the way to its workspace takes of a path. -/
structure Outlook where
  job : Job
  plan : Plan
  treatment : Treatment
  links : Nat
  size : Nat

namespace Outlook

variable (o : Outlook)

/-- Why a step is skipped in a workspace, if it is. -/
def skips (tree : Node) (step : Step) : Option SkipReason :=
  match step.action with
  | .package (.installManifest manifest) =>
    if Workspace.hasFile o.links o.size tree manifest then none
    else some (.manifestMissing manifest)
  | _ => none

/-- Whether a step looks for its manifest inside of the workspace only. -/
def looksInside (tree : Node) (step : Step) : Bool :=
  match step.action with
  | .package (.installManifest manifest) =>
    !Path.isAbsolute manifest && FileSystem.staysInside tree o.links [] (Path.names manifest)
  | _ => true

def conclude (toolchain : Toolchain) (step : Step) (position : Nat) : StepOutcome × String :=
  step.conclude (step.command (Task.context o.job o.plan ⟨⟨""⟩, toolchain⟩))
    (o.treatment.answers position)

/-- How the steps end that are left when some have been carried out. -/
def steps (toolchain : Toolchain) : Node → List Outline → List Step → List Outline × RunStatus
  | _, done, [] => (done, .completed)
  | tree, done, step :: rest =>
    match o.skips tree step with
    | some reason =>
      steps toolchain tree (done ++ [⟨step.name, step.phase, .skipped reason, ""⟩]) rest
    | none =>
      let (outcome, output) := o.conclude toolchain step done.length
      let done' := done ++ [⟨step.name, step.phase, outcome, output⟩]
      match outcome with
      | .failed failure => (done', .failed step.name failure)
      | .cancelled => (done', .cancelled (some step.name))
      | _ => steps toolchain (o.treatment.left done.length) done' rest

/-- Whether each step that is attempted looks for its manifest inside of the workspace only. -/
def staysInside (toolchain : Toolchain) : Node → Nat → List Step → Bool
  | _, _, [] => true
  | tree, position, step :: rest =>
    o.looksInside tree step && match o.skips tree step with
      | some _ => staysInside toolchain tree (position + 1) rest
      | none => !(o.conclude toolchain step position).1.isPassing ||
          staysInside toolchain (o.treatment.left position) (position + 1) rest

def run (tree : Node) : List Outline × RunStatus :=
  match o.job.workflow.versionFor? o.plan with
  | none => ([], .failed setupStep (Task.noVersion o.job))
  | some version =>
    match o.treatment.toolchain with
    | .error e => ([], .failed setupStep (.provision version e.message))
    | .ok toolchain => o.steps toolchain tree [] o.job.workflow.steps

end Outlook

/-- How a step ends depends on nothing of its run but the interpreter. -/
theorem Step.conclude_congr (step : Step) {context context' : RunContext}
    (h : context.toolchain = context'.toolchain) (result : Except RunnerError Output) :
    step.conclude (step.command context) result = step.conclude (step.command context') result := by
  have hdisplay : (step.command context).display = (step.command context').display := by
    simp only [Command.display, command, h]
  cases result with
  | error e => rfl
  | ok output =>
      simp only [conclude, failure, hdisplay]

namespace Outlook

section
variable {o : Outlook} {toolchain : Toolchain} {total : List Outline × RunStatus}

/-- The steps end as foreseen, from where they are. What the workspace holds matters until the
command of a step is handed over. -/
def Foresees (o : Outlook) (toolchain : Toolchain) (total : List Outline × RunStatus)
    (holds : Node → Prop) : Progress → Prop
  | .ready results steps => ∃ tree, holds tree ∧
      o.staysInside toolchain tree results.length steps ∧
      o.steps toolchain tree (results.map StepResult.outline) steps = total
  | .busy results step rest handed _ => ∃ tree,
      (if handed then o.skips tree step = none else holds tree) ∧
      o.staysInside toolchain tree results.length (step :: rest) ∧
      o.steps toolchain tree (results.map StepResult.outline) (step :: rest) = total
  | .ended results status => (results.map StepResult.outline, status) = total
  | .aborted _ => False

theorem foresees_skipped {results : List StepResult} {step : Step} {rest : List Step} {tree : Node}
    {reason : SkipReason} {holds : Node → Prop} (hskip : o.skips tree step = some reason)
    (hinside : o.staysInside toolchain tree results.length (step :: rest))
    (hsteps : o.steps toolchain tree (results.map StepResult.outline) (step :: rest) = total)
    (hat : holds tree) (startedAt finishedAt : Instant) :
    Foresees o toolchain total holds
      (.ready (results ++ [step.record (.skipped reason) "" startedAt finishedAt]) rest) := by
  refine ⟨tree, hat, ?_, ?_⟩
  · simp only [staysInside, hskip, Bool.and_eq_true] at hinside
    simpa using hinside.2
  · simp only [steps, hskip] at hsteps
    simpa [StepResult.outline, Step.record] using hsteps

theorem foresees_concluded {results : List StepResult} {step : Step} {rest : List Step}
    {tree : Node} {holds : Node → Prop} (hskip : o.skips tree step = none)
    (hinside : o.staysInside toolchain tree results.length (step :: rest))
    (hsteps : o.steps toolchain tree (results.map StepResult.outline) (step :: rest) = total)
    (hleft : holds (o.treatment.left results.length)) (startedAt finishedAt : Instant) :
    Foresees o toolchain total holds (Progress.proceed results rest
      (step.record (o.conclude toolchain step results.length).1
        (o.conclude toolchain step results.length).2 startedAt finishedAt)) := by
  simp only [staysInside, hskip, Bool.and_eq_true] at hinside
  simp only [steps, hskip, List.length_map] at hsteps
  generalize o.conclude toolchain step results.length = ending at hinside hsteps ⊢
  obtain ⟨outcome, output⟩ := ending
  cases outcome with
  | succeeded =>
      refine ⟨_, hleft, ?_, ?_⟩
      · simpa [StepOutcome.isPassing] using hinside.2
      · simpa [StepResult.outline, Step.record] using hsteps
  | skipped reason =>
      refine ⟨_, hleft, ?_, ?_⟩
      · simpa [StepOutcome.isPassing] using hinside.2
      · simpa [StepResult.outline, Step.record] using hsteps
  | failed failure =>
      simpa [Progress.proceed, Foresees, StepResult.outline, Step.record] using hsteps
  | cancelled => simpa [Progress.proceed, Foresees, StepResult.outline, Step.record] using hsteps

/-- One turn of the steps of a run that is not cancelled. -/
theorem foresees_advance (context : RunContext) (holds : FileSystem → Node → Prop) {reply : Reply}
    {scene : Scene} {progress : Progress}
    (h : Foresees o context.toolchain total (holds scene.files) progress)
    (hc : scene.cancelled = false)
    (hskips : ∀ tree step, holds scene.files tree → o.looksInside tree step →
      step.skipReason? scene.files context = o.skips tree step)
    (hreply : ∀ results step rest handed startedAt,
      progress = .busy results step rest handed startedAt → reply.output = .pending ∨
        reply.output = .ready (o.treatment.answers results.length) ∧
          holds (reply.files scene.files) (o.treatment.left results.length)) :
    Foresees o context.toolchain total (holds (progress.advance context reply scene).scene.files)
      (progress.advance context reply scene).progress := by
  cases progress with
  | ready results steps =>
      obtain ⟨tree, hat, hinside, hsteps⟩ := h
      cases steps with
      | nil => simpa [Progress.advance, Foresees, Outlook.steps] using hsteps
      | cons step rest =>
          simp only [Progress.advance, hc, Bool.false_eq_true, if_false]
          exact ⟨tree, hat, hinside, hsteps⟩
  | busy results step rest handed startedAt =>
      obtain ⟨tree, hat, hinside, hsteps⟩ := h
      have hlooks : o.looksInside tree step := by
        simp only [staysInside, Bool.and_eq_true] at hinside
        exact hinside.1
      have hskip : (if handed then none else step.skipReason? scene.files context) =
          if handed then none else o.skips tree step := by
        cases handed with
        | true => rfl
        | false => exact hskips tree step hat hlooks
      simp only [Progress.advance, hc, Bool.false_eq_true, if_false, hskip]
      cases hreason : (if handed then none else o.skips tree step) with
      | some reason =>
          obtain ⟨rfl, hreason⟩ : handed = false ∧ o.skips tree step = some reason := by
            cases handed <;> simp_all
          exact foresees_skipped hreason hinside hsteps hat _ _
      | none =>
          have hnone : o.skips tree step = none := by
            cases handed <;> simp_all
          rcases hreply results step rest handed startedAt rfl with ho | ⟨ho, hleft⟩
          · simp only [ho]
            exact ⟨tree, hnone, hinside, hsteps⟩
          · simp only [ho]
            have hconclude : step.conclude (step.command context)
                (o.treatment.answers results.length) =
                  o.conclude context.toolchain step results.length :=
              step.conclude_congr rfl _
            rw [hconclude]
            exact foresees_concluded hnone hinside hsteps hleft _ _
  | ended results status => exact h
  | aborted message => exact h.elim

end

end Outlook

end BuildMatrix
