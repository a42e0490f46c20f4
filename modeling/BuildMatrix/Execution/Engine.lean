import BuildMatrix.Execution.Task

/-!
# Executions

An execution has one task for each plan of a workflow, or none if the workflow is not started by
the event at hand. The tasks take turns in any order. Their runs are joined in the order of the
plans, so the report has this order whatever the turns were; a task that panicked leaves a run that
failed before its first step.
-/

namespace BuildMatrix

/-- What is written down, with the position of the task that it belongs to, if there is one. -/
structure LogEntry where
  task : Option Nat
  entry : Entry

/-- The execution of a workflow, as far as it has come. -/
structure Execution where
  job : Job
  id : Ident
  startedAt : Instant
  shared : Shared
  tasks : List Task
  joined : List Run
  log : List LogEntry
  completedAt : Option Instant

/-- What may happen to an execution. -/
inductive Move where
  | cancel
  /-- Time passes until an instant. -/
  | tick (now : Instant)
  | turn (task : Nat) (reply : Reply)
  /-- The next task, if it is over, is joined; after the last one the execution is complete. -/
  | join

namespace Execution

def plansFor (workflow : Workflow) (event : String) : List Plan :=
  if workflow.isTriggeredBy event then workflow.plans else []

def announce (event : Event) : LogEntry := ⟨none, .event event⟩

def start (job : Job) (event : String) (id : Ident) (shared : Shared) : Execution :=
  let plans := plansFor job.workflow event
  let now := shared.scene.clock
  { job, id, shared
    startedAt := now
    tasks := plans.map fun plan => Task.spawn plan now
    joined := []
    log := [announce (.pipelineStarted id job.workflow.name plans.length job.workflow.steps.length)]
    completedAt := none }

def panicText (message : String) : String :=
  "task N panicked with message " ++ Text.quoted message

/-- The status of the run of a task that panicked. -/
def abortedStatus (message : String) : RunStatus :=
  .failed setupStep (.aborted (panicText message))

def abortedRun (plan : Plan) (message : String) (now : Instant) : Run :=
  { plan
    cacheKey := none
    cacheStatus := none
    results := []
    status := abortedStatus message
    startedAt := now
    completedAt := some now }

def status (e : Execution) : PipelineStatus := .ofRuns (e.joined.map (·.status))

def turn (e : Execution) (position : Nat) (reply : Reply) : Execution :=
  match e.tasks[position]? with
  | none => e
  | some task =>
    let turn := task.turn e.job reply e.shared
    { e with
      shared := turn.shared
      tasks := e.tasks.set position { task with stage := turn.stage }
      log := e.log ++ turn.entries.map fun entry => ⟨some position, entry⟩ }

/-- Joins the next task, or completes the execution after the last one. -/
def join (e : Execution) : Execution :=
  let position := e.joined.length
  let now := e.shared.scene.clock
  match e.tasks[position]? with
  | some task =>
    match task.stage with
    | .finished run => { e with joined := e.joined ++ [run] }
    | .aborted message =>
      { e with
        joined := e.joined ++ [abortedRun task.plan message now]
        log := e.log ++
          [⟨some position, .event (.runFinished task.plan (abortedStatus message))⟩] }
    | _ => e
  | none =>
    match e.completedAt with
    | some _ => e
    | none =>
      { e with
        log := e.log ++ [announce (.pipelineCompleted e.id e.status)]
        completedAt := some now }

def move (e : Execution) : Move → Execution
  | .cancel => { e with shared := { e.shared with scene := e.shared.scene.cancel } }
  | .tick now =>
    { e with shared := { e.shared with scene := { e.shared.scene with clock := now } } }
  | .turn position reply => e.turn position reply
  | .join => e.join

def run (e : Execution) (moves : List Move) : Execution := moves.foldl move e

def report? (e : Execution) : Option Report :=
  e.completedAt.map fun completedAt =>
    { executionId := e.id
      workflow := e.job.workflow.name
      runs := e.joined
      status := e.status
      startedAt := e.startedAt
      completedAt }

/-- What is written down of one task. -/
def entriesOf (e : Execution) (position : Nat) : List Entry :=
  (e.log.filter fun l => l.task == some position).map (·.entry)

/-- The events that belong to no task. -/
def announcements (e : Execution) : List Entry :=
  (e.log.filter fun l => l.task == none).map (·.entry)

end Execution

end BuildMatrix
