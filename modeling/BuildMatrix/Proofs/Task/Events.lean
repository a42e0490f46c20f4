import BuildMatrix.Proofs.Task.Turn

/-!
# The events of a run

What the events of one run tell is a course: an interpreter, a restored cache, steps that were
started and finished, and a saved cache, in this order. At each stage of a task its course is known
from the stage, and when the run ends the course agrees with what is recorded of it. A task that
panics leaves a course that may break off in a step.
-/

namespace BuildMatrix

def Entry.event? : Entry → Option Event
  | .event told => some told
  | _ => none

/-- What the events of a run tell. -/
structure Course where
  interpreter : Option String := none
  restored : Option (String × CacheStatus) := none
  steps : List (String × StepOutcome) := []
  /-- A step that was started and has not been finished. -/
  unfinished : Option String := none
  saved : Option (String × PutOutcome) := none

namespace Course

def events (plan : Plan) (course : Course) : List Event :=
  [.runStarted plan]
    ++ course.interpreter.toList.map (fun interpreter => .provisioned plan interpreter)
    ++ course.restored.toList.map (fun cache => .cacheRestored plan cache.1 cache.2)
    ++ course.steps.flatMap
      (fun step => [.stepStarted plan step.1, .stepFinished plan step.1 step.2])
    ++ course.unfinished.toList.map (fun step => .stepStarted plan step)
    ++ course.saved.toList.map fun cache => .cacheSaved plan cache.1 cache.2

/-- The course of a run that has ended in order tells what is recorded of the run. -/
structure Agrees (course : Course) (run : Run) : Prop where
  finished : course.unfinished = none
  steps : course.steps = run.results.map fun r => (r.step, r.outcome)
  restored_iff : ∀ key status, course.restored = some (key, status) ↔
    run.cacheKey = some key ∧ run.cacheStatus = some status
  saved : ∀ key outcome, course.saved = some (key, outcome) →
    run.cacheKey = some key ∧ run.status = .completed ∧ run.cacheStatus ≠ some .hit

end Course

namespace Progress

def results : Progress → List StepResult
  | ready results _ | busy results _ _ _ _ | ended results _ => results
  | aborted _ => []

def inFlight? : Progress → Option Step
  | busy _ step _ _ _ => some step
  | _ => none

end Progress

namespace Course

/-- The course of a run whose steps are carried out. -/
def ofSteps (setup : Setup) (cache : RestoredCache) (progress : Progress) : Course :=
  { interpreter := some setup.toolchain.interpreter
    restored := cache.map fun c => (c.1.render, c.2)
    steps := progress.results.map fun r => (r.step, r.outcome)
    unfinished := progress.inFlight?.map (·.name) }

/-- The course of a run after its last step, before the cache is saved. -/
def ofResults (interpreter : Option String) (cache : RestoredCache) (results : List StepResult) :
    Course :=
  { interpreter
    restored := cache.map fun c => (c.1.render, c.2)
    steps := results.map fun r => (r.step, r.outcome) }

theorem events_ofSteps_ended (plan : Plan) (setup : Setup) (cache : RestoredCache)
    (results : List StepResult) (status : RunStatus) :
    (ofSteps setup cache (.ended results status)).events plan =
      (ofResults (some setup.toolchain.interpreter) cache results).events plan := rfl

theorem agrees_ofResults (interpreter : Option String) (task : Task) (cache : RestoredCache)
    (results : List StepResult) (status : RunStatus) (now : Instant) :
    (ofResults interpreter cache results).Agrees (task.record cache results status now) where
  finished := rfl
  steps := rfl
  restored_iff key status := by
    cases cache with
    | none => simp [ofResults, Task.record]
    | some c => simp [ofResults, Task.record]
  saved key outcome h := by simp [ofResults] at h

/-- A cache that was not found under its key is saved after the last step of a completed run. -/
theorem agrees_saved (interpreter : Option String) (task : Task) (key : CacheKey)
    {status : CacheStatus} (hs : status ≠ .hit) (results : List StepResult) (outcome : PutOutcome)
    (now : Instant) :
    Agrees
      { ofResults interpreter (some (key, status)) results with
        saved := some (key.render, outcome) }
      (task.record (some (key, status)) results .completed now) where
  finished := rfl
  steps := rfl
  restored_iff :=
    (agrees_ofResults interpreter task (some (key, status)) results .completed now).restored_iff
  saved key' outcome' h := by
    obtain ⟨rfl, rfl⟩ : key.render = key' ∧ outcome = outcome' := by simpa using h
    refine ⟨rfl, rfl, ?_⟩
    simpa [Task.record] using hs

end Course

namespace Progress

def eventsOf (plan : Plan) (notices : List Notice) : List Event :=
  (notices.map (Task.entryOf plan)).filterMap Entry.event?

theorem eventsOf_append (plan : Plan) (before after : List Notice) :
    eventsOf plan (before ++ after) = eventsOf plan before ++ eventsOf plan after := by
  simp [eventsOf]

theorem eventsOf_handed (plan : Plan) (handed : Bool) (command : Command) (files : FileSystem) :
    eventsOf plan (if handed then [] else [.handed command files]) = [] := by
  cases handed <;> rfl

section
variable (context : RunContext) (reply : Reply) (scene : Scene) (plan : Plan)

/-- What one turn of a step in flight adds to the events: its end, or nothing. -/
theorem busy_events (results : List StepResult) (step : Step) (rest : List Step) (handed : Bool)
    (startedAt : Instant) {turn : Turn}
    (ht : (busy results step rest handed startedAt).advance context reply scene = turn) :
    (∃ result : StepResult, result.step = step.name ∧
      turn.progress = proceed results rest result ∧
      eventsOf plan turn.notices = [.stepFinished plan step.name result.outcome]) ∨
    (turn.progress = busy results step rest true startedAt ∨
      ∃ message, turn.progress = .aborted message) ∧ eventsOf plan turn.notices = [] := by
  have hfinish (outcome : StepOutcome) (output : String) (scene : Scene) (notices : List Notice)
      (hnone : eventsOf plan notices = []) :
      ∃ result : StepResult, result.step = step.name ∧
        (finish results step rest startedAt outcome output scene notices).progress =
          proceed results rest result ∧
        eventsOf plan (finish results step rest startedAt outcome output scene notices).notices =
          [.stepFinished plan step.name result.outcome] := by
    refine ⟨step.record outcome output startedAt scene.clock, rfl, rfl, ?_⟩
    rw [finish, eventsOf_append, hnone]
    rfl
  simp only [advance] at ht
  split at ht
  · subst ht
    exact .inl (hfinish _ _ _ _ rfl)
  split at ht
  · subst ht
    exact .inl (hfinish _ _ _ _ rfl)
  split at ht
  · subst ht
    exact .inr ⟨.inl rfl, eventsOf_handed _ _ _ _⟩
  · subst ht
    exact .inr ⟨.inr ⟨_, rfl⟩, eventsOf_handed _ _ _ _⟩
  · subst ht
    exact .inl (hfinish _ _ _ _ (eventsOf_handed _ _ _ _))

end

theorem results_proceed (results : List StepResult) (rest : List Step) (result : StepResult) :
    (proceed results rest result).results = results ++ [result] ∧
      (proceed results rest result).inFlight? = none := by
  unfold proceed
  split <;> exact ⟨rfl, rfl⟩

end Progress

section
variable {context : RunContext} {reply : Reply} {scene : Scene} {progress : Progress}
  (plan : Plan) (setup : Setup) (cache : RestoredCache) {turn : Progress.Turn}

/-- A turn of the steps that does not panic continues the course of the run. -/
theorem Course.events_advance (ht : progress.advance context reply scene = turn)
    (hn : ∀ message, turn.progress ≠ .aborted message) :
    (ofSteps setup cache turn.progress).events plan =
      (ofSteps setup cache progress).events plan ++ Progress.eventsOf plan turn.notices := by
  cases progress with
  | ready results steps =>
      cases steps with
      | nil =>
          subst ht
          exact (List.append_nil _).symm
      | cons step rest =>
          simp only [Progress.advance] at ht
          split at ht
          · subst ht
            exact (List.append_nil _).symm
          · subst ht
            simp [ofSteps, events, Progress.results, Progress.inFlight?, Progress.eventsOf,
              Task.entryOf, Entry.event?]
  | busy results step rest handed startedAt =>
      rcases Progress.busy_events context reply scene plan results step rest handed startedAt ht with
        ⟨result, hname, hnext, hevents⟩ | ⟨hnext | ⟨message, hnext⟩, hevents⟩
      · obtain ⟨hresults, hflight⟩ := Progress.results_proceed results rest result
        have hbusy : (Progress.busy results step rest handed startedAt).results = results := rfl
        rw [hnext, hevents]
        simp only [ofSteps, events, hresults, hflight, hbusy, List.map_append]
        simp [Progress.inFlight?, hname]
      · rw [hnext, hevents, List.append_nil]
        rfl
      · exact absurd hnext (hn message)
  | ended results status =>
      subst ht
      exact (List.append_nil _).symm
  | aborted message =>
      subst ht
      exact absurd rfl (hn message)

theorem Course.events_panic (ht : progress.advance context reply scene = turn) {message : String}
    (ha : turn.progress = .aborted message) : Progress.eventsOf plan turn.notices = [] := by
  cases progress with
  | ready results steps =>
      cases steps with
      | nil => subst ht; simp [Progress.advance] at ha
      | cons step rest =>
          simp only [Progress.advance] at ht
          split at ht <;> (subst ht; simp at ha)
  | busy results step rest handed startedAt =>
      rcases Progress.busy_events context reply scene plan results step rest handed startedAt ht with
        ⟨result, -, hnext, -⟩ | ⟨-, hevents⟩
      · rw [hnext] at ha
        simp only [Progress.proceed] at ha
        split at ha <;> simp at ha
      · exact hevents
  | ended results status => subst ht; rfl
  | aborted message => subst ht; rfl

end

namespace Task

/-- What the events of a task have told at its stage. -/
def Narrated (task : Task) (events : List Event) : Prop :=
  match task.stage with
  | .spawned => events = []
  | .begun | .staging _ | .provisioning .. =>
    events = (Course.ofResults none none []).events task.plan
  | .provisioned setup | .lookingUp setup _ _ | .restoring setup _ _ =>
    events = (Course.ofResults (some setup.toolchain.interpreter) none []).events task.plan
  | .stepping setup cache progress =>
    events = (Course.ofSteps setup cache progress).events task.plan
  | .packing setup key status results | .saving setup key status results _ => status ≠ .hit ∧
    events = (Course.ofResults (some setup.toolchain.interpreter) (some (key, status))
      results).events task.plan
  | .closing _ cache results status => ∃ course : Course,
    (∀ now, course.Agrees (task.record cache results status now)) ∧
      events = course.events task.plan
  | .finished run => run.plan = task.plan ∧ ∃ course : Course, course.Agrees run ∧
    events = course.events task.plan ++ [.runFinished task.plan run.status]
  | .aborted _ => ∃ course : Course, course.saved = none ∧ events = course.events task.plan

theorem event?_request (version : String) (asked : Bool) :
    (request version asked).filterMap Entry.event? = [] := by
  cases asked <;> rfl

/-- A run without a cache has ended before its first step. -/
theorem narrated_closing {task : Task} {workspace : Option Workspace} {results : List StepResult}
    {status : RunStatus} {cache : RestoredCache} (interpreter : Option String)
    (hs : task.stage = .closing workspace cache results status) {events : List Event}
    (he : events = (Course.ofResults interpreter cache results).events task.plan) :
    task.Narrated events := by
  unfold Narrated
  rw [hs]
  exact ⟨_, fun now => Course.agrees_ofResults interpreter task cache results status now, he⟩

theorem narrated_afterSteps {task : Task} {setup : Setup} {cache : RestoredCache}
    {progress : Progress} (hn : ∀ message, progress ≠ .aborted message)
    (hs : task.stage = afterSteps setup cache progress) {events : List Event}
    (he : events = (Course.ofSteps setup cache progress).events task.plan) :
    task.Narrated events := by
  cases progress with
  | ready results rest =>
      unfold Narrated
      rw [hs]
      exact he
  | busy results step rest handed startedAt =>
      unfold Narrated
      rw [hs]
      exact he
  | aborted message => exact absurd rfl (hn message)
  | ended results status =>
      rw [Course.events_ofSteps_ended] at he
      cases status with
      | failed step failure => exact narrated_closing _ hs he
      | cancelled step => exact narrated_closing _ hs he
      | completed =>
          match cache, hs, he with
          | none, hs, he => exact narrated_closing _ hs he
          | some (key, .hit), hs, he => exact narrated_closing _ hs he
          | some (key, .partialHit other), hs, he =>
              unfold Narrated
              rw [hs]
              exact ⟨by simp, he⟩
          | some (key, .miss), hs, he =>
              unfold Narrated
              rw [hs]
              exact ⟨by simp, he⟩

theorem narrated_spawn (plan : Plan) (now : Instant) : (spawn plan now).Narrated [] := rfl

theorem narrated_turn {job : Job} {reply : Reply} {shared : Shared} {task : Task}
    {events : List Event} (h : task.Narrated events) :
    (task.after job reply shared).Narrated
      (events ++ (task.turn job reply shared).entries.filterMap Entry.event?) := by
  have ht := takes_turn job reply shared task
  unfold Narrated at h
  obtain ⟨plan, startedAt, stage⟩ := task
  simp only [after] at h ht ⊢
  generalize turn job reply shared ⟨plan, startedAt, stage⟩ = turn at ht ⊢
  cases ht with
  | spawned => subst h; rfl
  | begunCancelled _ => exact narrated_closing none rfl (by simpa using h)
  | begunWithoutVersion _ _ => exact narrated_closing none rfl (by simpa using h)
  | begun version _ _ => simpa [Narrated] using h
  | stagingFailed version files e _ => exact narrated_closing none rfl (by simpa using h)
  | staged version files workspace _ => simpa [Narrated] using h
  | provisioningCancelled version workspace asked _ =>
      exact narrated_closing none rfl (by simpa using h)
  | provisioningWaits version workspace asked _ _ => simpa [Narrated, event?_request] using h
  | provisioningPanics version workspace asked message _ _ =>
      exact ⟨Course.ofResults none none [], rfl, by simpa [event?_request] using h⟩
  | provisioningFailed version workspace asked e _ _ =>
      exact narrated_closing none rfl (by simpa [event?_request] using h)
  | provisioned version workspace asked toolchain _ _ =>
      subst h
      simp [Narrated, event?_request, Entry.event?, Course.events, Course.ofResults]
  | withoutKey setup e _ =>
      rw [List.filterMap_nil, List.append_nil]
      exact h
  | withKey setup key _ => simpa [Narrated] using h
  | found setup key entry _ => simpa [Narrated] using h
  | notFound setup key _ => simpa [Narrated] using h
  | missed setup key => simpa [Narrated] using h
  | foundOther setup key stem stems entry _ => simpa [Narrated] using h
  | notFoundOther setup key stem stems _ => simpa [Narrated] using h
  | restored setup key found files status _ =>
      subst h
      rfl
  | stepped setup cache progress turn hturn hn =>
      refine narrated_afterSteps hn rfl ?_
      subst h
      exact (Course.events_advance plan setup cache hturn hn).symm
  | stepPanics setup cache progress turn message hturn ha =>
      refine ⟨Course.ofSteps setup cache progress, rfl, ?_⟩
      have hnone : (turn.notices.map (entryOf plan)).filterMap Entry.event? = [] :=
        Course.events_panic plan hturn ha
      rw [hnone, List.append_nil]
      exact h
  | packed setup key status results payload _ => simpa [Narrated] using h
  | notPacked setup key status results e _ => exact narrated_closing _ rfl (by simpa using h.2)
  | saved setup key status results payload store outcome _ =>
      obtain ⟨hs, rfl⟩ := h
      refine ⟨_, fun now => Course.agrees_saved (some setup.toolchain.interpreter) _ key hs results
        outcome now, ?_⟩
      simp [Course.events, Course.ofResults, Entry.event?]
  | notSaved setup key status results payload e _ =>
      exact narrated_closing _ rfl (by simpa using h.2)
  | closed workspace cache results status =>
      obtain ⟨course, hagrees, rfl⟩ := h
      exact ⟨rfl, course, hagrees _, rfl⟩
  | ended stage hover =>
      rcases hover with ⟨run, rfl⟩ | ⟨message, rfl⟩
      · simpa [Narrated] using h
      · simpa [Narrated] using h

end Task

end BuildMatrix
