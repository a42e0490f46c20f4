import BuildMatrix.Proofs.Json.Record
import BuildMatrix.Proofs.Run.Ident
import BuildMatrix.Run.Exchange

/-!
# Reports are read back

Each type that occurs in a report is read back from its JSON value, by one lemma for each type. A
tag, a variant or a field that only the writer or only the reader knows would leave one of these
lemmas without a proof.
-/

namespace BuildMatrix

open Json

theorem Plan.reads (plan : Plan) : Reads ofJson? plan.toJson plan := by
  intro j hj
  obtain ⟨_, hassignments, hfields, -⟩ := hj.fields ["axis_values"] rfl (by decide)
  have hread := reads_list (fun a _ => reads_textPair a) _ hassignments
  simp [ofJson?, hfields, required?, hread]

theorem Phase.reads (phase : Phase) : Reads ofJson? phase.toJson phase :=
  reads_string (by cases phase <;> rfl)

theorem SkipReason.reads (reason : SkipReason) : Reads ofJson? reason.toJson reason := by
  intro j hj
  cases reason with
  | manifestMissing path =>
    obtain ⟨_, htag, _, hpath, hfields, -⟩ := hj.tagged ["path"] rfl (by decide)
    simp [ofJson?, htag, hfields, required?, reads_text _ _ hpath]

theorem reads_exitCode (code : Option Int32) :
    ReadsField (optional? int32?) (exitCodeJson code) code :=
  Reads.optional rfl fun n _ => reads_int32 n

theorem StepFailure.reads (failure : StepFailure) : Reads ofJson? failure.toJson failure := by
  intro j hj
  cases failure with
  | provision version message =>
    obtain ⟨_, htag, _, hversion, _, hmessage, hfields, -⟩ :=
      hj.tagged ["version", "message"] rfl (by decide)
    simp [ofJson?, htag, hfields, required?, reads_text _ _ hversion, reads_text _ _ hmessage]
  | commandFailed command code =>
    obtain ⟨_, htag, _, hcommand, _, hcode, hfields, -⟩ :=
      hj.tagged ["command", "exit_code"] rfl (by decide)
    simp [ofJson?, htag, hfields, required?, reads_text _ _ hcommand, reads_exitCode _ _ hcode]
  | versionPinMismatch package version code =>
    obtain ⟨_, htag, _, hpackage, _, hversion, _, hcode, hfields, -⟩ :=
      hj.tagged ["package", "version", "exit_code"] rfl (by decide)
    simp [ofJson?, htag, hfields, required?, reads_text _ _ hpackage, reads_text _ _ hversion,
      reads_exitCode _ _ hcode]
  | testExecutionFailure code =>
    obtain ⟨_, htag, _, hcode, hfields, -⟩ := hj.tagged ["exit_code"] rfl (by decide)
    simp [ofJson?, htag, hfields, required?, reads_exitCode _ _ hcode]
  | installVerificationFailure code =>
    obtain ⟨_, htag, _, hcode, hfields, -⟩ := hj.tagged ["exit_code"] rfl (by decide)
    simp [ofJson?, htag, hfields, required?, reads_exitCode _ _ hcode]
  | workspace message =>
    obtain ⟨_, htag, _, hmessage, hfields, -⟩ := hj.tagged ["message"] rfl (by decide)
    simp [ofJson?, htag, hfields, required?, reads_text _ _ hmessage]
  | spawn command message =>
    obtain ⟨_, htag, _, hcommand, _, hmessage, hfields, -⟩ :=
      hj.tagged ["command", "message"] rfl (by decide)
    simp [ofJson?, htag, hfields, required?, reads_text _ _ hcommand, reads_text _ _ hmessage]
  | timeout command seconds =>
    obtain ⟨_, htag, _, hcommand, _, hseconds, hfields, -⟩ :=
      hj.tagged ["command", "secs"] rfl (by decide)
    simp [ofJson?, htag, hfields, required?, reads_text _ _ hcommand, reads_uint64 _ _ hseconds]
  | aborted message =>
    obtain ⟨_, htag, _, hmessage, hfields, -⟩ := hj.tagged ["message"] rfl (by decide)
    simp [ofJson?, htag, hfields, required?, reads_text _ _ hmessage]

theorem StepOutcome.reads (outcome : StepOutcome) : Reads ofJson? outcome.toJson outcome := by
  cases outcome with
  | succeeded => exact reads_string rfl
  | skipped reason =>
    intro j hj
    obtain ⟨_, hvariant, hpayload⟩ := hj.variant
    simp [ofJson?, hvariant, reason.reads _ hpayload]
  | failed failure =>
    intro j hj
    obtain ⟨_, hvariant, hpayload⟩ := hj.variant
    simp [ofJson?, hvariant, failure.reads _ hpayload]
  | cancelled => exact reads_string rfl

theorem reads_text? (text : Option String) :
    ReadsField (optional? text?) (ofString? text) text := by
  have hwritten : ofString? text = ofOption string text := by cases text <;> rfl
  rw [hwritten]
  exact Reads.optional rfl fun s _ => reads_text s

theorem RunStatus.reads (status : RunStatus) : Reads ofJson? status.toJson status := by
  cases status with
  | completed => exact reads_string rfl
  | failed step failure =>
    intro j hj
    obtain ⟨_, hvariant, hpayload⟩ := hj.variant
    obtain ⟨_, hstep, _, hfailure, -, hmembers⟩ :=
      hpayload.fields ["step", "error"] rfl (by decide)
    simp [ofJson?, hvariant, hmembers, required?, reads_text _ _ hstep, failure.reads _ hfailure]
  | cancelled step =>
    intro j hj
    obtain ⟨_, hvariant, hpayload⟩ := hj.variant
    obtain ⟨_, hstep, -, hmembers⟩ := hpayload.fields ["step"] rfl (by decide)
    simp [ofJson?, hvariant, hmembers, reads_text? _ _ hstep]

theorem PipelineStatus.reads (status : PipelineStatus) : Reads ofJson? status.toJson status :=
  reads_string (by cases status <;> rfl)

theorem CacheStatus.reads (status : CacheStatus) : Reads ofJson? status.toJson status := by
  cases status with
  | hit => exact reads_string rfl
  | partialHit key =>
    intro j hj
    obtain ⟨_, hvariant, hpayload⟩ := hj.variant
    obtain ⟨_, hkey, -, hmembers⟩ := hpayload.fields ["matched_key"] rfl (by decide)
    simp [ofJson?, hvariant, hmembers, required?, reads_text _ _ hkey]
  | miss => exact reads_string rfl

theorem Ident.reads (id : Ident) : Reads ofJson? id.toJson id := by
  refine reads_string ?_
  rw [ofJson?, text?, Option.bind_some]
  exact id.read?_render

/-- The text of the instant stands for this instant. -/
def Instant.ReadsBack (t : Instant) : Prop := read? t.render = some t

instance (t : Instant) : Decidable t.ReadsBack := inferInstanceAs (Decidable (_ = _))

theorem Instant.reads {t : Instant} (h : t.ReadsBack) : Reads ofJson? t.toJson t := by
  refine reads_string ?_
  rw [ofJson?, text?, Option.bind_some]
  exact h

/-! ### Records with points of time -/

def StepResult.instants (result : StepResult) : List Instant :=
  [result.startedAt, result.finishedAt]

def Run.instants (run : Run) : List Instant :=
  run.results.flatMap StepResult.instants ++ run.startedAt :: run.completedAt.toList

def Report.instants (report : Report) : List Instant :=
  report.runs.flatMap Run.instants ++ [report.startedAt, report.completedAt]

theorem StepResult.reads {result : StepResult} (h : ∀ t ∈ result.instants, t.ReadsBack) :
    Reads ofJson? result.toJson result := by
  intro j hj
  have hstarted := Instant.reads (h result.startedAt (by simp [instants]))
  have hfinished := Instant.reads (h result.finishedAt (by simp [instants]))
  obtain ⟨_, hstep, _, hphase, _, houtcome, _, houtput, _, hs, _, hf, hfields, -⟩ := hj.fields
    ["step", "phase", "outcome", "output", "started_at", "finished_at"] rfl (by decide)
  simp [ofJson?, hfields, required?, reads_text _ _ hstep, result.phase.reads _ hphase,
    result.outcome.reads _ houtcome, reads_text _ _ houtput, hstarted _ hs, hfinished _ hf]

theorem Run.reads {run : Run} (h : ∀ t ∈ run.instants, t.ReadsBack) :
    Reads ofJson? run.toJson run := by
  intro j hj
  have hresults : Reads (list? StepResult.ofJson?) (array (run.results.map StepResult.toJson))
      run.results :=
    reads_list fun result hmem => StepResult.reads fun t ht =>
      h t (List.mem_append_left _ (List.mem_flatMap_of_mem hmem ht))
  have hstarted := Instant.reads (h run.startedAt (by simp [instants]))
  have hcompleted : ReadsField (optional? Instant.ofJson?)
      (ofOption Instant.toJson run.completedAt) run.completedAt :=
    Reads.optional rfl fun t ht => Instant.reads (h t (by simp [instants, Option.mem_def.mp ht]))
  have hcacheStatus : ReadsField (optional? CacheStatus.ofJson?)
      (ofOption CacheStatus.toJson run.cacheStatus) run.cacheStatus :=
    Reads.optional rfl fun status _ => status.reads
  obtain ⟨_, hplan, _, hkey, _, hcache, _, hr, _, hstatus, _, hs, _, hc, hfields, -⟩ := hj.fields
    ["plan", "cache_key", "cache_status", "step_results", "status", "started_at", "completed_at"]
    rfl (by decide)
  simp [ofJson?, hfields, required?, run.plan.reads _ hplan, reads_text? _ _ hkey,
    hcacheStatus _ hcache, hresults _ hr, run.status.reads _ hstatus, hstarted _ hs,
    hcompleted _ hc]

theorem Report.reads {report : Report} (h : ∀ t ∈ report.instants, t.ReadsBack) :
    Reads ofJson? report.toJson report := by
  intro j hj
  have hruns : Reads (list? Run.ofJson?) (array (report.runs.map Run.toJson)) report.runs :=
    reads_list fun run hmem => Run.reads fun t ht =>
      h t (List.mem_append_left _ (List.mem_flatMap_of_mem hmem ht))
  have hstarted := Instant.reads (h report.startedAt (by simp [instants]))
  have hcompleted := Instant.reads (h report.completedAt (by simp [instants]))
  obtain ⟨_, hid, _, hworkflow, _, hr, _, hstatus, _, hs, _, hc, hfields, -⟩ := hj.fields
    ["execution_id", "workflow", "runs", "status", "started_at", "completed_at"] rfl (by decide)
  simp [ofJson?, hfields, required?, report.executionId.reads _ hid, reads_text _ _ hworkflow,
    hruns _ hr, report.status.reads _ hstatus, hstarted _ hs, hcompleted _ hc]

/--
A report is read back from each JSON value that is the same as its own, so no other report has the
same JSON value.
-/
theorem Report.json_roundTrip {report : Report} (h : ∀ t ∈ report.instants, t.ReadsBack) :
    (∀ j, Same report.toJson j → ofJson? j = some report) ∧
    ∀ other : Report, (∀ t ∈ other.instants, t.ReadsBack) →
      Same report.toJson other.toJson → other = report := by
  refine ⟨Report.reads h, fun other hother hsame => ?_⟩
  have hread : ofJson? other.toJson = some report := Report.reads h _ hsame
  rw [(Report.reads hother).self] at hread
  exact Option.some.inj hread

def mixedReport (failure : StepFailure) : Report where
  executionId := .zero
  workflow := "ci"
  runs :=
    [{ plan := ⟨[("python-version", "3.8")]⟩
       cacheKey := none
       cacheStatus := none
       results := []
       status := .failed setupStep failure
       startedAt := ⟨86399, 1500000000⟩
       completedAt := some ⟨86400, 0⟩ },
     { plan := ⟨[("python-version", "3.9")]⟩
       cacheKey := some "deps-3.9"
       cacheStatus := some (.partialHit "deps-")
       results :=
         [⟨"install", .installDependencies, .skipped (.manifestMissing "requirements.txt"), "",
           ⟨1700000000, 123456789⟩, ⟨1700000001, 120000000⟩⟩,
          ⟨"test", .runTests, .cancelled, "a line\n", ⟨-1, 0⟩, ⟨-1, 1000⟩⟩]
       status := .cancelled (some "test")
       startedAt := .epoch
       completedAt := none }]
  status := .cancelled
  startedAt := .epoch
  completedAt := ⟨1700000002, 0⟩

theorem Report.json_roundTrip_mixed :
    (∀ t ∈ (mixedReport (.timeout "pip" 600)).instants, t.ReadsBack) ∧
    ofJson? (mixedReport (.timeout "pip" 600)).toJson = some (mixedReport (.timeout "pip" 600)) ∧
    ¬Same (mixedReport (.timeout "pip" 600)).toJson
      (mixedReport (.versionPinMismatch "pip" "600" none)).toJson := by
  have hread (failure : StepFailure) : ∀ t ∈ (mixedReport failure).instants, t.ReadsBack := by
    have hinstants : (mixedReport failure).instants = (mixedReport (.aborted "")).instants := rfl
    rw [hinstants]
    decide +kernel
  refine ⟨hread _, (json_roundTrip (hread _)).1 _ (.refl _), fun hsame => ?_⟩
  exact absurd ((json_roundTrip (hread _)).2 _ (hread _) hsame) (by decide)

end BuildMatrix
