import BuildMatrix.Proofs.Task.Turn

/-!
# Cancelled tasks

Once the cancellation is requested, nothing that the host answers matters any more: the stage of a
task decides how its run ends. A run whose last step is not over ends cancelled, unless its
workspace cannot be staged in the files that its next turn finds. A step in flight is its last
result; before the first step there are no results, and between two steps all results pass.
-/

namespace BuildMatrix

def Entry.isRequest : Entry → Bool
  | .event _ => false
  | .asked _ | .handed .. => true

namespace Stage

/-- Whether the run has neither failed nor come to the end of its last step. -/
def isUndecided : Stage → Bool
  | spawned | begun | staging _ | provisioning .. | provisioned _ | lookingUp .. | restoring .. =>
    true
  | stepping _ _ (.ready _ rest) => !rest.isEmpty
  | stepping _ _ (.busy ..) => true
  | _ => false

/-- How a run ends that is undecided when the cancellation is requested, with the files that its
next turn finds, if it gets one. -/
inductive EndsCancelled (job : Job) (plan : Plan) (files? : Option FileSystem) :
    Stage → List StepResult → RunStatus → Prop
  | spawned : EndsCancelled job plan files? .spawned [] (.cancelled none)
  | begun : EndsCancelled job plan files? .begun [] (.cancelled none)
  | staging (version : String) (files files' : FileSystem) (workspace : Workspace) :
      files? = some files →
      Workspace.stage files job.temporary job.directory plan = (files', .ok workspace) →
      EndsCancelled job plan files? (.staging version) [] (.cancelled (some setupStep))
  | stagingFails (version : String) (files files' : FileSystem) (e : WorkspaceError) :
      files? = some files →
      Workspace.stage files job.temporary job.directory plan = (files', .error e) →
      EndsCancelled job plan files? (.staging version) [] (.failed setupStep (.workspace e.message))
  | provisioning (version : String) (workspace : Workspace) (asked : Bool) :
      EndsCancelled job plan files? (.provisioning version workspace asked) []
        (.cancelled (some setupStep))
  | provisioned (setup : Setup) : EndsCancelled job plan files? (.provisioned setup) [] (.cancelled none)
  | lookingUp (setup : Setup) (key : CacheKey) (stems : Option (List String)) :
      EndsCancelled job plan files? (.lookingUp setup key stems) [] (.cancelled none)
  | restoring (setup : Setup) (key : CacheKey) (found : Resolution) :
      EndsCancelled job plan files? (.restoring setup key found) [] (.cancelled none)
  | between (setup : Setup) (cache : RestoredCache) (results : List StepResult) (step : Step)
      (rest : List Step) : (∀ r ∈ results, r.outcome.isPassing) →
      EndsCancelled job plan files? (.stepping setup cache (.ready results (step :: rest))) results
        (.cancelled none)
  | interrupted (setup : Setup) (cache : RestoredCache) (results : List StepResult) (step : Step)
      (rest : List Step) (handed : Bool) (startedAt finishedAt : Instant) :
      (∀ r ∈ results, r.outcome.isPassing) →
      EndsCancelled job plan files? (.stepping setup cache (.busy results step rest handed startedAt))
        (results ++ [step.record .cancelled "" startedAt finishedAt])
        (.cancelled (some step.name))

/-- A bound on the turns that a task still needs once the cancellation is requested. -/
def turnsLeft (policy : CachePolicy) : Stage → Nat
  | spawned | staging _ => 3
  | begun | provisioning .. => 2
  | provisioned _ => policy.restoreKeys.length + 9
  | lookingUp _ _ none => policy.restoreKeys.length + 8
  | lookingUp _ _ (some stems) => stems.length + 6
  | restoring .. => 5
  | stepping .. => 4
  | packing .. => 3
  | saving .. => 2
  | closing .. => 1
  | finished _ | aborted _ => 0

def isSound : Stage → Bool
  | aborted _ | stepping _ _ (.aborted _) => false
  | _ => true

/-- The end of a list of steps at whose next turn the cancellation is requested. -/
def StepsEnd : Progress → List StepResult → RunStatus → Prop
  | .ready results [], results', status => results' = results ∧ status = .completed
  | .ready results (_ :: _), results', status => results' = results ∧ status = .cancelled none
  | .busy results step _ _ startedAt, results', status => ∃ finishedAt,
    results' = results ++ [step.record .cancelled "" startedAt finishedAt] ∧
      status = .cancelled (some step.name)
  | .ended results status, results', status' => results' = results ∧ status' = status
  | .aborted _, _, _ => False

/-- The end of a run at whose next turn the cancellation is requested. -/
def End (job : Job) (plan : Plan) (files? : Option FileSystem) :
    Stage → List StepResult → RunStatus → Prop
  | .staging _, results, status => results = [] ∧ ∃ files files', files? = some files ∧
    ((∃ workspace,
        Workspace.stage files job.temporary job.directory plan = (files', .ok workspace) ∧
          status = .cancelled (some setupStep)) ∨
      ∃ e, Workspace.stage files job.temporary job.directory plan = (files', .error e) ∧
        status = .failed setupStep (.workspace e.message))
  | .provisioning .., results, status => results = [] ∧ status = .cancelled (some setupStep)
  | .spawned, results, status | .begun, results, status | .provisioned _, results, status
  | .lookingUp .., results, status | .restoring .., results, status =>
    results = [] ∧ status = .cancelled none
  | .stepping _ _ progress, results, status => StepsEnd progress results status
  | .packing _ _ _ results', results, status | .saving _ _ _ results' _, results, status =>
    results = results' ∧ status = .completed
  | .closing _ _ results' status', results, status => results = results' ∧ status = status'
  | .finished run, results, status => results = run.results ∧ status = run.status
  | .aborted _, _, _ => False

def Accounted (job : Job) (plan : Plan) : Stage → Prop
  | .stepping setup _ progress => ∃ notices answers,
    Progress.Told (Task.context job plan setup) job.workflow.steps notices answers progress
  | _ => True

/-- The end of an undecided run is a cancellation. -/
theorem endsCancelled_of_end {job : Job} {plan : Plan} {files? : Option FileSystem} {stage : Stage}
    {results : List StepResult} {status : RunStatus} (hu : stage.isUndecided)
    (ha : stage.Accounted job plan) (he : stage.End job plan files? results status) :
    EndsCancelled job plan files? stage results status := by
  cases stage with
  | spawned => obtain ⟨rfl, rfl⟩ := he; exact .spawned
  | begun => obtain ⟨rfl, rfl⟩ := he; exact .begun
  | staging version =>
      obtain ⟨rfl, files, files', hfiles, ⟨workspace, hs, rfl⟩ | ⟨e, hs, rfl⟩⟩ := he
      · exact .staging version files files' workspace hfiles hs
      · exact .stagingFails version files files' e hfiles hs
  | provisioning version workspace asked =>
      obtain ⟨rfl, rfl⟩ := he; exact .provisioning version workspace asked
  | provisioned setup => obtain ⟨rfl, rfl⟩ := he; exact .provisioned setup
  | lookingUp setup key stems => obtain ⟨rfl, rfl⟩ := he; exact .lookingUp setup key stems
  | restoring setup key found => obtain ⟨rfl, rfl⟩ := he; exact .restoring setup key found
  | stepping setup cache progress =>
      obtain ⟨notices, answers, ht⟩ := ha
      cases progress with
      | ready results' rest =>
          obtain ⟨attempts, -, hp, -⟩ := ht
          cases rest with
          | nil => simp [isUndecided] at hu
          | cons step rest => obtain ⟨rfl, rfl⟩ := he; exact .between setup cache _ step rest hp
      | busy results' step rest handed startedAt =>
          obtain ⟨attempts, before, during, -, -, -, hp, -⟩ := ht
          obtain ⟨finishedAt, rfl, rfl⟩ := he
          exact .interrupted setup cache _ step rest handed startedAt finishedAt hp
      | ended results' status' => simp [isUndecided] at hu
      | aborted message => simp [isUndecided] at hu
  | packing setup key status results => simp [isUndecided] at hu
  | saving setup key status results payload => simp [isUndecided] at hu
  | closing workspace cache results status => simp [isUndecided] at hu
  | finished run => simp [isUndecided] at hu
  | aborted message => simp [isUndecided] at hu

theorem EndsCancelled.ne_completed {job : Job} {plan : Plan} {files? : Option FileSystem}
    {stage : Stage} {results : List StepResult} {status : RunStatus}
    (h : EndsCancelled job plan files? stage results status) : status ≠ .completed := by
  cases h <;> simp

theorem isSound_of_isUndecided {stage : Stage} (h : stage.isUndecided) : stage.isSound := by
  cases stage with
  | stepping setup cache progress => cases progress <;> simp_all [isUndecided, isSound]
  | _ => simp_all [isUndecided, isSound]

theorem stepsEnd_of_afterSteps {job : Job} {plan : Plan} {files? : Option FileSystem}
    {setup : Setup} {cache : RestoredCache} {progress : Progress} {results : List StepResult}
    {status : RunStatus}
    (h : (Task.afterSteps setup cache progress).End job plan files? results status) :
    StepsEnd progress results status := by
  unfold Task.afterSteps at h
  split at h
  · split at h <;> exact h
  · exact h
  · exact h
  · exact h

theorem turnsLeft_afterSteps_le (policy : CachePolicy) (setup : Setup) (cache : RestoredCache)
    {progress : Progress} (h : progress.isOver) :
    (Task.afterSteps setup cache progress).turnsLeft policy ≤ 3 := by
  unfold Task.afterSteps
  split
  · split <;> simp [turnsLeft]
  · simp [turnsLeft]
  · simp [turnsLeft]
  · next hended haborted =>
      cases progress with
      | ended results status => exact absurd rfl (hended results status)
      | aborted message => exact absurd rfl (haborted message)
      | _ => simp [Progress.isOver] at h

end Stage

namespace Progress

section
variable {context : RunContext} {reply : Reply} {scene : Scene} {progress : Progress}

/-- The turn after the request to cancel decides the end of the steps. -/
theorem stepsEnd_advance (hc : scene.cancelled) {results : List StepResult} {status : RunStatus}
    (h : Stage.StepsEnd (progress.advance context reply scene).progress results status) :
    Stage.StepsEnd progress results status := by
  cases progress with
  | ready results' rest =>
      cases rest with
      | nil => exact h
      | cons step rest => simpa [advance, hc, Stage.StepsEnd] using h
  | busy results' step rest handed startedAt =>
      simp only [advance, hc, if_true, finish, proceed, Step.record] at h
      exact ⟨scene.clock, h⟩
  | ended results' status' => exact h
  | aborted message => exact h

theorem command?_advance (hc : scene.cancelled) {notice : Notice}
    (h : notice ∈ (progress.advance context reply scene).notices) : notice.command? = none := by
  cases progress with
  | ready results rest => cases rest <;> simp [advance, hc] at h
  | busy results step rest handed startedAt =>
      simp only [advance, hc, if_true, finish, List.nil_append, List.mem_singleton] at h
      rw [h]
      rfl
  | ended results status => simp [advance] at h
  | aborted message => simp [advance] at h

/-- The host is not asked after the request to cancel, and so it cannot panic. -/
theorem not_aborted_advance (hc : scene.cancelled) (hp : ∀ message, progress ≠ .aborted message)
    (message : String) : (progress.advance context reply scene).progress ≠ .aborted message := by
  cases progress with
  | ready results rest => cases rest <;> simp [advance, hc]
  | busy results step rest handed startedAt =>
      simp [advance, hc, finish, proceed, Step.record]
  | ended results status => simp [advance]
  | aborted message' => exact absurd rfl (hp message')

end

end Progress

namespace Task

theorem isRequest_entryOf {plan : Plan} {notice : Notice} (h : notice.command? = none) :
    (entryOf plan notice).isRequest = false := by
  cases notice with
  | started step => rfl
  | handed command files => simp [Notice.command?] at h
  | finished result => rfl

theorem accounted_afterSteps (job : Job) (plan : Plan) (setup : Setup) (cache : RestoredCache)
    {progress : Progress} {notices : List Notice} {answers : List (Except RunnerError Output)}
    (h : Progress.Told (context job plan setup) job.workflow.steps notices answers progress) :
    (afterSteps setup cache progress).Accounted job plan := by
  unfold afterSteps
  split
  · split <;> trivial
  · trivial
  · trivial
  · exact ⟨notices, answers, h⟩

theorem isSound_afterSteps (setup : Setup) (cache : RestoredCache) {progress : Progress}
    (h : ∀ message, progress ≠ .aborted message) : (afterSteps setup cache progress).isSound := by
  unfold afterSteps
  split
  · split <;> rfl
  · rfl
  · next message => exact absurd rfl (h message)
  · cases progress with
    | aborted message => exact absurd rfl (h message)
    | _ => rfl

theorem length_stemsFor_le (policy : CachePolicy) (key : CacheKey) :
    (policy.stemsFor key).length ≤ policy.restoreKeys.length + 1 := by
  unfold CachePolicy.stemsFor
  split
  · simp
  · omega

section
variable {job : Job} {reply : Reply} {shared : Shared} {task : Task}

theorem accounted_turn (h : task.stage.Accounted job task.plan) :
    (task.turn job reply shared).stage.Accounted job task.plan := by
  have ht := takes_turn job reply shared task
  generalize task.turn job reply shared = turn at ht ⊢
  generalize task.stage = stage at ht h
  cases ht with
  | withoutKey setup e _ => exact ⟨[], [], Progress.told_start _ _⟩
  | restored setup key found files status _ => exact ⟨[], [], Progress.told_start _ _⟩
  | stepped setup cache progress turn hturn _ =>
      obtain ⟨notices, answers, htold⟩ := h
      subst hturn
      exact accounted_afterSteps job task.plan setup cache (Progress.told_advance reply _ htold)
  | ended stage hover => exact h
  | _ => trivial

theorem isRequest_turn (hc : shared.scene.cancelled) {entry : Entry}
    (h : entry ∈ (task.turn job reply shared).entries) : entry.isRequest = false := by
  have ht := takes_turn job reply shared task
  generalize task.turn job reply shared = turn at ht h
  generalize task.stage = stage at ht
  cases ht with
  | stepped setup cache progress turn hturn _ =>
      obtain ⟨notice, hn, rfl⟩ := List.mem_map.mp h
      subst hturn
      exact isRequest_entryOf (Progress.command?_advance hc hn)
  | stepPanics setup cache progress turn message hturn _ =>
      obtain ⟨notice, hn, rfl⟩ := List.mem_map.mp h
      subst hturn
      exact isRequest_entryOf (Progress.command?_advance hc hn)
  | spawned => rw [List.mem_singleton.mp h]; rfl
  | restored setup key found files status _ => rw [List.mem_singleton.mp h]; rfl
  | saved setup key status results payload store outcome _ => rw [List.mem_singleton.mp h]; rfl
  | closed workspace cache results status => rw [List.mem_singleton.mp h]; rfl
  | _ => simp_all

/-- After the request to cancel a turn leaves no end possible that was not possible before. No task
is about to be staged after it, and so its later files do not matter. -/
theorem end_turn (hc : shared.scene.cancelled) (hsteps : job.workflow.steps ≠ [])
    {later? : Option FileSystem} {results : List StepResult} {status : RunStatus}
    (h : (task.turn job reply shared).stage.End job task.plan later? results status) :
    task.stage.End job task.plan (some shared.scene.files) results status := by
  have ht := takes_turn job reply shared task
  generalize task.turn job reply shared = turn at ht h
  generalize task.stage = stage at ht ⊢
  have hstart : Stage.StepsEnd (.start job.workflow.steps) results status →
      results = [] ∧ status = .cancelled none := by
    intro hs
    obtain ⟨step, rest, hcons⟩ := List.exists_cons_of_ne_nil hsteps
    simpa [hcons, Progress.start, Stage.StepsEnd] using hs
  cases ht with
  | stagingFailed version files e hs =>
      obtain ⟨rfl, rfl⟩ := h
      exact ⟨rfl, _, files, rfl, .inr ⟨e, hs, rfl⟩⟩
  | staged version files workspace hs =>
      exact ⟨h.1, _, files, rfl, .inl ⟨workspace, hs, h.2⟩⟩
  | withoutKey setup e _ => exact hstart h
  | restored setup key found files status' _ => exact hstart h
  | stepped setup cache progress turn hturn _ =>
      subst hturn
      exact Progress.stepsEnd_advance hc (Stage.stepsEnd_of_afterSteps h)
  | stepPanics setup cache progress turn message _ _ => exact h.elim
  | closed workspace cache results' status' => exact h
  | ended stage hover => obtain ⟨run, rfl⟩ | ⟨message, rfl⟩ := hover <;> exact h
  | _ => simp_all [Stage.End]

theorem isSound_turn (hc : shared.scene.cancelled) (h : task.stage.isSound) :
    (task.turn job reply shared).stage.isSound := by
  have ht := takes_turn job reply shared task
  generalize task.turn job reply shared = turn at ht ⊢
  generalize task.stage = stage at ht h
  cases ht with
  | provisioningPanics version workspace asked message hn _ => simp [hn] at hc
  | stepped setup cache progress turn _ hn => exact isSound_afterSteps setup cache hn
  | stepPanics setup cache progress turn message hturn haborted =>
      have hp : ∀ message', progress ≠ .aborted message' := by
        rintro message' rfl
        simp [Stage.isSound] at h
      subst hturn
      exact absurd haborted (Progress.not_aborted_advance hc hp message)
  | ended stage _ => exact h
  | _ => rfl

theorem turnsLeft_turn (hc : shared.scene.cancelled) :
    (task.turn job reply shared).stage.turnsLeft job.workflow.cache ≤
      task.stage.turnsLeft job.workflow.cache - 1 := by
  have ht := takes_turn job reply shared task
  generalize task.turn job reply shared = turn at ht ⊢
  generalize task.stage = stage at ht ⊢
  cases ht with
  | notFound setup key _ =>
      have hlength := length_stemsFor_le job.workflow.cache key
      simp only [Stage.turnsLeft]
      omega
  | stepped setup cache progress turn hturn _ =>
      have hover := Progress.isOver_advance_of_cancelled (context job task.plan setup) reply
        shared.scene progress hc
      exact Stage.turnsLeft_afterSteps_le job.workflow.cache setup cache (hturn ▸ hover)
  | ended stage hover => rcases hover with ⟨run, rfl⟩ | ⟨message, rfl⟩ <;> exact Nat.le_refl _
  | _ => simp_all [Stage.turnsLeft, setupFailed]

end

end Task

end BuildMatrix
