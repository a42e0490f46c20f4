import BuildMatrix.Proofs.Task.Cancelled

/-!
# The step that a status names

A run that does not complete names a step, unless it was cancelled between two. If it ends while it
is staged or provisioned, before any of its steps, it names the setup; if it ends later, the step
whose result is the last one.
-/

namespace BuildMatrix

def RunStatus.step? : RunStatus → Option String
  | completed => none
  | failed step _ => some step
  | cancelled step => step

/-- The step that a status names is the one that did not pass, at the end of the results. -/
def NamesLast (results : List StepResult) (status : RunStatus) : Prop :=
  ∀ name, status.step? = some name ↔ ∃ earlier last, results = earlier ++ [last] ∧
    last.step = name ∧ last.outcome.isPassing = false

/-- What a run has to show that has ended, in its setup or after it. -/
inductive Verdict (names : List String) (inSetup : Prop) : List StepResult → RunStatus → Prop
  | inSetup (status : RunStatus) : inSetup → status.step? = some setupStep →
      Verdict names inSetup [] status
  | ofSteps (results : List StepResult) (status : RunStatus) : ¬inSetup →
      NamesLast results status → (∀ r ∈ results, r.step ∈ names) →
      Verdict names inSetup results status

theorem namesLast_of_passing {results : List StepResult} {status : RunStatus}
    (h : status.step? = none) (hp : ∀ r ∈ results, r.outcome.isPassing) :
    NamesLast results status := by
  intro name
  constructor
  · intro hname
    rw [h] at hname
    cases hname
  · intro hlast
    obtain ⟨earlier, last, rfl, -, hnot⟩ := hlast
    rw [hp last (by simp)] at hnot
    cases hnot

theorem namesLast_concat {earlier : List StepResult} {last : StepResult} {status : RunStatus}
    (h : status.step? = some last.step) (hnot : last.outcome.isPassing = false) :
    NamesLast (earlier ++ [last]) status := by
  intro name
  rw [h, Option.some.injEq]
  constructor
  · intro hname
    exact ⟨earlier, last, rfl, hname, hnot⟩
  · intro hlast
    obtain ⟨earlier', last', hsame, hname, -⟩ := hlast
    rw [List.singleton_inj.mp (List.append_inj' hsame rfl).2]
    exact hname

namespace Progress

theorem Ending.namesLast {results : List StepResult} {rest : List Step} {status : RunStatus}
    (h : Ending results rest status) : NamesLast results status := by
  cases h with
  | completed hp => exact namesLast_of_passing rfl hp
  | between hp => exact namesLast_of_passing rfl hp
  | failed hp hf => exact namesLast_concat rfl (by rw [hf]; rfl)
  | interrupted hp hc => exact namesLast_concat rfl (by rw [hc]; rfl)

theorem Ending.passing {results : List StepResult} {rest : List Step}
    (h : Ending results rest .completed) : ∀ r ∈ results, r.outcome.isPassing := by
  cases h with
  | completed hp => exact hp

theorem Account.step_mem {context : RunContext} {attempts : List Attempt}
    {results : List StepResult} {notices : List Notice}
    {answers : List (Except RunnerError Output)} {steps rest : List Step}
    (h : Account context attempts results notices answers)
    (hs : steps = attempts.map (·.step) ++ rest) : ∀ r ∈ results, r.step ∈ steps.map (·.name) := by
  intro r hr
  rw [h.results] at hr
  obtain ⟨a, ha, rfl⟩ := List.mem_map.mp hr
  rw [(h.sound a ha).result_step, hs]
  exact List.mem_map_of_mem (List.mem_append_left rest (List.mem_map_of_mem ha))

end Progress

namespace Stage

def inSetup : Stage → Bool
  | staging _ | provisioning .. => true
  | _ => false

def isClosing : Stage → Bool
  | closing .. => true
  | _ => false

theorem not_isClosing_of_inSetup {stage : Stage} (h : stage.inSetup) :
    stage.isClosing = false := by
  cases stage with
  | closing workspace cache results status => exact absurd h Bool.false_ne_true
  | _ => rfl

/-- A run has the verdict that its end calls for, or has not ended in its setup. -/
def Located (names : List String) (inSetup : Prop) : Stage → Prop
  | closing _ _ results status => Verdict names inSetup results status
  | finished run => Verdict names inSetup run.results run.status
  | packing _ _ _ results | saving _ _ _ results _ =>
    ¬inSetup ∧ (∀ r ∈ results, r.outcome.isPassing) ∧ ∀ r ∈ results, r.step ∈ names
  | aborted _ => True
  | _ => ¬inSetup

theorem not_of_located {names : List String} {inSetup : Prop} {stage : Stage}
    (hs : stage.inSetup) (h : stage.Located names inSetup) : ¬inSetup := by
  cases stage with
  | staging version => exact h
  | provisioning version workspace asked => exact h
  | _ => exact absurd hs Bool.false_ne_true

end Stage

namespace Task

theorem stage_of_run? {task : Task} {run : Run} (h : task.run? = some run) :
    task.stage = .finished run := by
  unfold run? at h
  split at h
  · next run' hs => exact Option.some.inj h ▸ hs
  · cases h

section
variable {job : Job} {reply : Reply} {shared : Shared} {task : Task} {inSetup inSetup' : Prop}

theorem located_afterSteps {plan : Plan} (hn : ¬inSetup) (setup : Setup) (cache : RestoredCache)
    {progress : Progress} {notices : List Notice} {answers : List (Except RunnerError Output)}
    (h : Progress.Told (context job plan setup) job.workflow.steps notices answers progress) :
    (afterSteps setup cache progress).Located (job.workflow.steps.map (·.name)) inSetup := by
  cases progress with
  | ended results status =>
    obtain ⟨attempts, rest, haccount, hending, hsteps⟩ := h
    have hmem := haccount.step_mem hsteps
    have hverdict : Verdict (job.workflow.steps.map (·.name)) inSetup results status :=
      .ofSteps results status hn hending.namesLast hmem
    cases status with
    | completed =>
      cases cache with
      | none => exact hverdict
      | some restored =>
        obtain ⟨key, found⟩ := restored
        cases found with
        | hit => exact hverdict
        | partialHit matched => exact ⟨hn, hending.passing, hmem⟩
        | miss => exact ⟨hn, hending.passing, hmem⟩
    | failed step failure => exact hverdict
    | cancelled step => exact hverdict
  | ready results rest => exact hn
  | busy results step rest handed startedAt => exact hn
  | aborted message => trivial

/-- A turn of a run that is staged or provisioned keeps it there, gets it past this or ends it with
the verdict of its setup. -/
theorem located_turn_of_inSetup (hsetup : task.stage.inSetup) (h : ¬inSetup)
    (hnow : inSetup' ↔ inSetup ∨ (task.turn job reply shared).stage.isClosing)
    (names : List String) :
    (task.turn job reply shared).stage.Located names inSetup' := by
  have ht := takes_turn job reply shared task
  generalize task.turn job reply shared = turn at ht hnow ⊢
  generalize task.stage = stage at ht hsetup
  have hsame (hstage : turn.stage.isClosing = false) : ¬inSetup' := by
    rw [hnow, hstage]
    exact not_or.mpr ⟨h, Bool.false_ne_true⟩
  cases ht with
  | stagingFailed version files e _ => exact .inSetup _ (hnow.mpr (.inr rfl)) rfl
  | provisioningCancelled version workspace asked _ => exact .inSetup _ (hnow.mpr (.inr rfl)) rfl
  | provisioningFailed version workspace asked e _ _ => exact .inSetup _ (hnow.mpr (.inr rfl)) rfl
  | staged version files workspace _ => exact hsame rfl
  | provisioningWaits version workspace asked _ _ => exact hsame rfl
  | provisioned version workspace asked toolchain _ _ => exact hsame rfl
  | provisioningPanics version workspace asked message _ _ => exact True.intro
  | ended stage hover =>
    obtain ⟨run, rfl⟩ | ⟨message, rfl⟩ := hover
    · exact absurd hsetup Bool.false_ne_true
    · exact absurd hsetup Bool.false_ne_true
  | _ => exact absurd hsetup Bool.false_ne_true

/-- A turn of any other run keeps the verdict that its end calls for. -/
theorem located_turn_of_not_inSetup (hsetup : task.stage.inSetup = false)
    (hversion : job.workflow.versionFor? task.plan ≠ none)
    (ha : task.stage.Accounted job task.plan)
    (h : task.stage.Located (job.workflow.steps.map (·.name)) inSetup) :
    (task.turn job reply shared).stage.Located (job.workflow.steps.map (·.name)) inSetup := by
  have ht := takes_turn job reply shared task
  generalize task.turn job reply shared = turn at ht ⊢
  generalize task.stage = stage at ht ha h hsetup
  cases ht with
  | begunCancelled _ =>
    exact .ofSteps [] _ h (namesLast_of_passing rfl fun r hr => nomatch hr) fun r hr => nomatch hr
  | begunWithoutVersion _ hnone => exact absurd hnone hversion
  | stepped setup cache progress turn hturn _ =>
    obtain ⟨notices, answers, htold⟩ := ha
    subst hturn
    exact located_afterSteps h setup cache (Progress.told_advance reply _ htold)
  | stepPanics setup cache progress turn message _ _ => exact True.intro
  | saved setup key status results payload store outcome _ =>
    exact .ofSteps results _ h.1 (namesLast_of_passing rfl h.2.1) h.2.2
  | notSaved setup key status results payload e _ =>
    exact .ofSteps results _ h.1 (namesLast_of_passing rfl h.2.1) h.2.2
  | notPacked setup key status results e _ =>
    exact .ofSteps results _ h.1 (namesLast_of_passing rfl h.2.1) h.2.2
  | stagingFailed | provisioningCancelled | provisioningFailed | provisioningPanics => cases hsetup
  | _ => exact h

theorem located_turn (hversion : job.workflow.versionFor? task.plan ≠ none)
    (ha : task.stage.Accounted job task.plan)
    (h : task.stage.Located (job.workflow.steps.map (·.name)) inSetup)
    (hnow : inSetup' ↔
      inSetup ∨ task.stage.inSetup ∧ (task.turn job reply shared).stage.isClosing) :
    (task.turn job reply shared).stage.Located (job.workflow.steps.map (·.name)) inSetup' := by
  cases hsetup : task.stage.inSetup with
  | true =>
    exact located_turn_of_inSetup hsetup (Stage.not_of_located hsetup h)
      (hnow.trans (or_congr_right (and_iff_right hsetup))) _
  | false =>
    rw [hsetup] at hnow
    obtain rfl : inSetup' = inSetup :=
      propext (hnow.trans (or_iff_left fun hs => Bool.false_ne_true hs.1))
    exact located_turn_of_not_inSetup hsetup hversion ha h

end

end Task

end BuildMatrix
