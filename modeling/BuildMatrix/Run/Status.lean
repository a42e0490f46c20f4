import BuildMatrix.Step.Basic
import BuildMatrix.Step.Failure

/-!
# Outcomes

Each attempted step has an outcome, each run a status, and the execution of all runs a status. The
cache of a run has a status of its own, which never decides that of the run.
-/

namespace BuildMatrix

inductive StepOutcome where
  | succeeded
  | skipped (reason : SkipReason)
  | failed (failure : StepFailure)
  | cancelled
deriving DecidableEq, Repr

def StepOutcome.isPassing : StepOutcome → Bool
  | .succeeded | .skipped _ => true
  | .failed _ | .cancelled => false

inductive RunStatus where
  | completed
  | failed (step : String) (failure : StepFailure)
  /-- With the step that was interrupted, if one was. -/
  | cancelled (step : Option String)
deriving DecidableEq, Repr

namespace RunStatus

/-- Whether every step of the run passed. -/
def isSuccess : RunStatus → Bool
  | completed => true
  | _ => false

def isCancelled : RunStatus → Bool
  | cancelled _ => true
  | _ => false

end RunStatus

/-- The step name of a failure before the first step. -/
def setupStep : String := "setup-python"

inductive PipelineStatus where
  | completed
  | failed
  | cancelled
deriving DecidableEq, Repr

/-- Completed if every run is; cancelled if any run is cancelled. -/
def PipelineStatus.ofRuns (statuses : List RunStatus) : PipelineStatus :=
  if statuses.any RunStatus.isCancelled then .cancelled
  else if statuses.all RunStatus.isSuccess then .completed
  else .failed

inductive CacheStatus where
  /-- The exact key. -/
  | hit
  /-- Another key that starts with a restore prefix. -/
  | partialHit (matchedKey : String)
  | miss
deriving DecidableEq, Repr

/-- What became of a write to the cache store. -/
inductive PutOutcome where
  | stored
  | alreadyExists
deriving DecidableEq, Repr

end BuildMatrix
