import BuildMatrix.Ident
import BuildMatrix.Matrix.Plan
import BuildMatrix.Run.Status
import BuildMatrix.Time.Instant

/-!
# Reports

A report has one run for each plan, in the order of the matrix. A run has one result for each
attempted step.
-/

namespace BuildMatrix

structure StepResult where
  step : String
  phase : Phase
  outcome : StepOutcome
  /-- What the command wrote; empty if there was none. -/
  output : String
  startedAt : Instant
  finishedAt : Instant
deriving DecidableEq, Repr

structure Run where
  plan : Plan
  /-- The cache key, once it is known. -/
  cacheKey : Option String
  /-- What was found in the cache, if it was looked up. -/
  cacheStatus : Option CacheStatus
  results : List StepResult
  status : RunStatus
  startedAt : Instant
  completedAt : Option Instant
deriving DecidableEq, Repr

namespace Run

def attempted (run : Run) : List String := run.results.map (·.step)

def resultFor? (run : Run) (step : String) : Option StepResult :=
  run.results.find? fun r => r.step == step

end Run

/-- The execution of all plans of a workflow. -/
structure Report where
  executionId : Ident
  workflow : String
  runs : List Run
  status : PipelineStatus
  startedAt : Instant
  completedAt : Instant
deriving DecidableEq, Repr

namespace Report

def succeeded (report : Report) : Bool := report.status == .completed

def failedRuns (report : Report) : List Run := report.runs.filter fun r => !r.status.isSuccess

def runFor? (report : Report) (label : String) : Option Run :=
  report.runs.find? fun r => r.plan.label == label

end Report

/-- A stored cache entry as it is listed. -/
structure CacheSummary where
  key : String
  size : UInt64
  createdAt : Instant
deriving DecidableEq, Repr

end BuildMatrix
