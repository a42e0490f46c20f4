import BuildMatrix.Execution.Scene
import BuildMatrix.Run.Report
import BuildMatrix.Step.Context

/-!
# The progress of a list of steps

Steps are carried out strictly in order, and the first one that does not pass is the last one that
is attempted. The signal to cancel is tested before each step. It is tested again each time a step
in flight gets its turn, before anything else: a step that is interrupted was never handed to the
host, or its command is given up.
-/

namespace BuildMatrix

/-- How far a list of steps has been carried out. -/
inductive Progress where
  | ready (results : List StepResult) (steps : List Step)
  /-- A step is in flight. The flag tells whether its command was handed over. -/
  | busy (results : List StepResult) (step : Step) (rest : List Step) (handed : Bool)
      (startedAt : Instant)
  | ended (results : List StepResult) (status : RunStatus)
  /-- The host panicked. -/
  | aborted (message : String)
deriving DecidableEq, Repr

/-- What is noticed of a list of steps from outside. -/
inductive Notice where
  | started (step : Step)
  /-- A command was handed over, with the files as they were. -/
  | handed (command : Command) (files : FileSystem)
  | finished (result : StepResult)

namespace Step

/-- How a step ends whose command has a result, and what the command wrote. -/
def conclude (step : Step) (command : Command) : Except RunnerError Output → StepOutcome × String
  | .ok output =>
    (if output.succeeded then .succeeded else .failed (step.failure command output),
      output.combined)
  | .error e => (.failed (.ofRunnerError e), "")

def record (step : Step) (outcome : StepOutcome) (output : String)
    (startedAt finishedAt : Instant) : StepResult :=
  ⟨step.name, step.phase, outcome, output, startedAt, finishedAt⟩

end Step

namespace Progress

/-- Nothing has been carried out yet. -/
def start (steps : List Step) : Progress := ready [] steps

def proceed (results : List StepResult) (rest : List Step) (result : StepResult) : Progress :=
  match result.outcome with
  | .succeeded | .skipped _ => ready (results ++ [result]) rest
  | .failed failure => ended (results ++ [result]) (.failed result.step failure)
  | .cancelled => ended (results ++ [result]) (.cancelled (some result.step))

/-- What one turn of a list of steps gives. -/
structure Turn where
  progress : Progress
  scene : Scene
  notices : List Notice

def finish (results : List StepResult) (step : Step) (rest : List Step) (startedAt : Instant)
    (outcome : StepOutcome) (output : String) (scene : Scene) (notices : List Notice) : Turn :=
  let result := step.record outcome output startedAt scene.clock
  ⟨proceed results rest result, scene, notices ++ [.finished result]⟩

/-- One turn. The reply is used only by a step whose command is, or was, handed over. -/
def advance (context : RunContext) (reply : Reply) (scene : Scene) : Progress → Turn
  | ready results [] => ⟨ended results .completed, scene, []⟩
  | ready results (step :: rest) =>
    if scene.cancelled then ⟨ended results (.cancelled none), scene, []⟩
    else ⟨busy results step rest false scene.clock, scene, [.started step]⟩
  | busy results step rest handed startedAt =>
    if scene.cancelled then finish results step rest startedAt .cancelled "" scene []
    else match (if handed then none else step.skipReason? scene.files context) with
      | some reason => finish results step rest startedAt (.skipped reason) "" scene []
      | none =>
        let command := step.command context
        let notices := if handed then [] else [.handed command scene.files]
        let scene := scene.after reply
        match reply.output with
        | .pending => ⟨busy results step rest true startedAt, scene, notices⟩
        | .panicked message => ⟨aborted message, scene, notices⟩
        | .ready result =>
          let (outcome, output) := step.conclude command result
          finish results step rest startedAt outcome output scene notices
  | progress => ⟨progress, scene, []⟩

/-- The command that the step in flight waits for. -/
def command? (context : RunContext) : Progress → Option Command
  | busy _ step _ _ _ => some (step.command context)
  | _ => none

/-- Whether nothing is left to do. -/
def isOver : Progress → Bool
  | ended .. | aborted _ => true
  | _ => false

end Progress

/-- What may happen while a list of steps is carried out. -/
inductive StepMove where
  | cancel
  /-- Time passes until an instant. -/
  | tick (now : Instant)
  /-- The list gets its turn. -/
  | advance (reply : Reply)

namespace Progress

/-- What has become of a list of steps, with everything that was noticed of it. -/
structure History where
  progress : Progress
  scene : Scene
  notices : List Notice

namespace History

/-- Nothing has happened yet. -/
def start (steps : List Step) (scene : Scene) : History := ⟨.start steps, scene, []⟩

def move (context : RunContext) (h : History) : StepMove → History
  | .cancel => { h with scene := h.scene.cancel }
  | .tick now => { h with scene := { h.scene with clock := now } }
  | .advance reply =>
    let turn := h.progress.advance context reply h.scene
    ⟨turn.progress, turn.scene, h.notices ++ turn.notices⟩

def run (context : RunContext) (h : History) (moves : List StepMove) : History :=
  moves.foldl (move context) h

end History

end Progress

end BuildMatrix
