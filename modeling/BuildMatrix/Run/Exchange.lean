import BuildMatrix.Run.Report
import BuildMatrix.Step.Exchange

/-!
# Reports in JSON

How outcomes, statuses, runs and reports are written as JSON values and read from them.
-/

namespace BuildMatrix

open Json

namespace StepOutcome

def toJson : StepOutcome → Json
  | succeeded => string "Succeeded"
  | skipped reason => ofVariant "Skipped" reason.toJson
  | failed failure => ofVariant "Failed" failure.toJson
  | cancelled => string "Cancelled"

def ofJson? (j : Json) : Option StepOutcome := do
  let (name, payload) ← variant? j
  match name with
  | "Succeeded" => unit? succeeded payload
  | "Skipped" => pure (skipped (← SkipReason.ofJson? (← payload)))
  | "Failed" => pure (failed (← StepFailure.ofJson? (← payload)))
  | "Cancelled" => unit? cancelled payload
  | _ => none

end StepOutcome

namespace RunStatus

def toJson : RunStatus → Json
  | completed => string "Completed"
  | failed step failure =>
    ofVariant "Failed" (object [("step", string step), ("error", failure.toJson)])
  | cancelled step => ofVariant "Cancelled" (object [("step", ofString? step)])

def ofJson? (j : Json) : Option RunStatus := do
  let (name, payload) ← variant? j
  match name with
  | "Completed" => unit? completed payload
  | "Failed" =>
    match ← members? ["step", "error"] (← payload) with
    | [step, failure] =>
      pure (failed (← required? text? step) (← required? StepFailure.ofJson? failure))
    | _ => none
  | "Cancelled" =>
    match ← members? ["step"] (← payload) with
    | [step] => pure (cancelled (← optional? text? step))
    | _ => none
  | _ => none

end RunStatus

namespace PipelineStatus

def name : PipelineStatus → String
  | completed => "Completed"
  | failed => "Failed"
  | cancelled => "Cancelled"

def toJson (status : PipelineStatus) : Json := string status.name

def ofJson? (j : Json) : Option PipelineStatus := do
  let (name, payload) ← variant? j
  match name with
  | "Completed" => unit? completed payload
  | "Failed" => unit? failed payload
  | "Cancelled" => unit? cancelled payload
  | _ => none

end PipelineStatus

namespace CacheStatus

def toJson : CacheStatus → Json
  | hit => string "Hit"
  | partialHit key => ofVariant "Partial" (object [("matched_key", string key)])
  | miss => string "Miss"

def ofJson? (j : Json) : Option CacheStatus := do
  let (name, payload) ← variant? j
  match name with
  | "Hit" => unit? hit payload
  | "Partial" =>
    match ← members? ["matched_key"] (← payload) with
    | [key] => pure (partialHit (← required? text? key))
    | _ => none
  | "Miss" => unit? miss payload
  | _ => none

end CacheStatus

namespace PutOutcome

def toJson : PutOutcome → Json
  | stored => string "Stored"
  | alreadyExists => string "AlreadyExists"

def ofJson? (j : Json) : Option PutOutcome := do
  let (name, payload) ← variant? j
  match name with
  | "Stored" => unit? stored payload
  | "AlreadyExists" => unit? alreadyExists payload
  | _ => none

end PutOutcome

namespace Instant

def toJson (t : Instant) : Json := string t.render

def ofJson? (j : Json) : Option Instant := j.text?.bind read?

end Instant

namespace Ident

def toJson (id : Ident) : Json := string id.render

def ofJson? (j : Json) : Option Ident := j.text?.bind read?

end Ident

namespace StepResult

def toJson (result : StepResult) : Json :=
  object [("step", string result.step), ("phase", result.phase.toJson),
    ("outcome", result.outcome.toJson), ("output", string result.output),
    ("started_at", result.startedAt.toJson), ("finished_at", result.finishedAt.toJson)]

def ofJson? (j : Json) : Option StepResult := do
  match ← fields? ["step", "phase", "outcome", "output", "started_at", "finished_at"] j with
  | [step, phase, outcome, output, startedAt, finishedAt] =>
    pure ⟨← required? text? step, ← required? Phase.ofJson? phase,
      ← required? StepOutcome.ofJson? outcome, ← required? text? output,
      ← required? Instant.ofJson? startedAt, ← required? Instant.ofJson? finishedAt⟩
  | _ => none

end StepResult

namespace Run

def toJson (run : Run) : Json :=
  object [("plan", run.plan.toJson), ("cache_key", ofString? run.cacheKey),
    ("cache_status", ofOption CacheStatus.toJson run.cacheStatus),
    ("step_results", array (run.results.map StepResult.toJson)), ("status", run.status.toJson),
    ("started_at", run.startedAt.toJson), ("completed_at", ofOption Instant.toJson run.completedAt)]

def ofJson? (j : Json) : Option Run := do
  match ← fields? ["plan", "cache_key", "cache_status", "step_results", "status", "started_at",
      "completed_at"] j with
  | [plan, key, cacheStatus, results, status, startedAt, completedAt] =>
    pure ⟨← required? Plan.ofJson? plan, ← optional? text? key,
      ← optional? CacheStatus.ofJson? cacheStatus, ← required? (list? StepResult.ofJson?) results,
      ← required? RunStatus.ofJson? status, ← required? Instant.ofJson? startedAt,
      ← optional? Instant.ofJson? completedAt⟩
  | _ => none

end Run

namespace Report

def toJson (report : Report) : Json :=
  object [("execution_id", report.executionId.toJson), ("workflow", string report.workflow),
    ("runs", array (report.runs.map Run.toJson)), ("status", report.status.toJson),
    ("started_at", report.startedAt.toJson), ("completed_at", report.completedAt.toJson)]

def ofJson? (j : Json) : Option Report := do
  let names := ["execution_id", "workflow", "runs", "status", "started_at", "completed_at"]
  match ← fields? names j with
  | [id, workflow, runs, status, startedAt, completedAt] =>
    pure ⟨← required? Ident.ofJson? id, ← required? text? workflow,
      ← required? (list? Run.ofJson?) runs, ← required? PipelineStatus.ofJson? status,
      ← required? Instant.ofJson? startedAt, ← required? Instant.ofJson? completedAt⟩
  | _ => none

end Report

namespace CacheSummary

def toJson (summary : CacheSummary) : Json :=
  object [("key", string summary.key), ("size_bytes", integer summary.size.toNat),
    ("created_at", summary.createdAt.toJson)]

def ofJson? (j : Json) : Option CacheSummary := do
  match ← fields? ["key", "size_bytes", "created_at"] j with
  | [key, size, createdAt] =>
    pure ⟨← required? text? key, ← required? uint64? size, ← required? Instant.ofJson? createdAt⟩
  | _ => none

end CacheSummary

end BuildMatrix
