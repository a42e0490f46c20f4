import BuildMatrix.Run.Report

/-!
# Events

Whoever watches an execution is told what happens by events. The events of one plan come in the
order of its run; those of different plans may alternate.
-/

namespace BuildMatrix

/-- What happens while a workflow is executed. -/
inductive Event where
  | pipelineStarted (id : Ident) (workflow : String) (runs stepsPerRun : Nat)
  | runStarted (plan : Plan)
  | provisioned (plan : Plan) (interpreter : String)
  | cacheRestored (plan : Plan) (key : String) (status : CacheStatus)
  | stepStarted (plan : Plan) (step : String)
  | stepFinished (plan : Plan) (step : String) (outcome : StepOutcome)
  | cacheSaved (plan : Plan) (key : String) (outcome : PutOutcome)
  | runFinished (plan : Plan) (status : RunStatus)
  | pipelineCompleted (id : Ident) (status : PipelineStatus)
deriving DecidableEq, Repr

end BuildMatrix
