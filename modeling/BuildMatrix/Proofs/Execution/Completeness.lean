import BuildMatrix.Proofs.Execution.Events

/-!
# Complete reports

A report has exactly one run for each plan, in the order of the plans. The run of a task that
panicked says so, and has no effect on the runs of the other tasks: had the task returned any run
instead, the report would differ in this run only.
-/

namespace BuildMatrix

/-! ### The status of several runs -/

theorem RunStatus.isSuccess_iff {status : RunStatus} : status.isSuccess ↔ status = .completed := by
  cases status <;> simp [isSuccess]

theorem RunStatus.isCancelled_iff {status : RunStatus} :
    status.isCancelled ↔ ∃ step, status = .cancelled step := by
  cases status <;> simp [isCancelled]

namespace PipelineStatus

variable {statuses : List RunStatus}

theorem ofRuns_eq_cancelled_iff :
    ofRuns statuses = .cancelled ↔ ∃ status ∈ statuses, status.isCancelled := by
  refine ⟨fun h => ?_, fun ⟨status, hmem, hc⟩ => ofRuns_of_cancelled hmem hc⟩
  unfold ofRuns at h
  split at h
  · next hany => exact List.any_eq_true.mp hany
  · split at h <;> cases h

theorem ofRuns_eq_completed_iff :
    ofRuns statuses = .completed ↔ ∀ status ∈ statuses, status = .completed := by
  unfold ofRuns
  refine ⟨fun h => ?_, fun h => ?_⟩
  · split at h
    · cases h
    · split at h
      · next hall =>
        exact fun status hmem => RunStatus.isSuccess_iff.mp (List.all_eq_true.mp hall status hmem)
      · cases h
  · have hnone : ¬statuses.any RunStatus.isCancelled := by
      rw [List.any_eq_true]
      rintro ⟨status, hmem, hc⟩
      rw [h status hmem] at hc
      cases hc
    have hall : statuses.all RunStatus.isSuccess :=
      List.all_eq_true.mpr fun status hmem => RunStatus.isSuccess_iff.mpr (h status hmem)
    rw [if_neg hnone, if_pos hall]

theorem ofRuns_perm {shuffled : List RunStatus} (h : shuffled.Perm statuses) :
    ofRuns shuffled = ofRuns statuses := by
  rw [ofRuns, ofRuns, h.any_eq, h.all_eq]

/-- The status of an execution tells whether all runs completed and whether one was cancelled. -/
structure SumsUp (status : PipelineStatus) (runs : List Run) : Prop where
  completed_iff : status = .completed ↔ ∀ run ∈ runs, run.status = .completed
  cancelled_iff : status = .cancelled ↔ ∃ run ∈ runs, ∃ step, run.status = .cancelled step
  failed_iff : status = .failed ↔ (∃ run ∈ runs, run.status ≠ .completed) ∧
    ∀ run ∈ runs, ∀ step, run.status ≠ .cancelled step

theorem sumsUp_ofRuns (runs : List Run) : SumsUp (ofRuns (runs.map (·.status))) runs := by
  have hcompleted : ofRuns (runs.map (·.status)) = .completed ↔
      ∀ run ∈ runs, run.status = .completed := by
    rw [ofRuns_eq_completed_iff, List.forall_mem_map]
  have hcancelled : ofRuns (runs.map (·.status)) = .cancelled ↔
      ∃ run ∈ runs, ∃ step, run.status = .cancelled step := by
    simp only [ofRuns_eq_cancelled_iff, RunStatus.isCancelled_iff, List.mem_map,
      exists_exists_and_eq_and]
  refine ⟨hcompleted, hcancelled, ?_⟩
  have hfailed : ofRuns (runs.map (·.status)) = .failed ↔
      ¬ofRuns (runs.map (·.status)) = .completed ∧ ¬ofRuns (runs.map (·.status)) = .cancelled := by
    cases ofRuns (runs.map (·.status)) <;> simp
  rw [hfailed, hcompleted, hcancelled]
  simp only [not_forall, not_exists, not_and, exists_prop, ne_eq]

end PipelineStatus

namespace Execution

/-! ### A panic and the other tasks -/

/-- The execution, had a task returned a run. -/
def returning (e : Execution) (position : Nat) (task : Task) (run : Run) : Execution :=
  { e with tasks := e.tasks.set position { task with stage := .finished run } }

/-- The second execution is the first, had a task returned a run. Their logs may differ. -/
structure Returns (position : Nat) (task : Task) (run : Run) (e e' : Execution) : Prop where
  job : e'.job = e.job
  id : e'.id = e.id
  startedAt : e'.startedAt = e.startedAt
  shared : e'.shared = e.shared
  tasks : e'.tasks = e.tasks.set position { task with stage := .finished run }
  joined : e'.joined = e.joined.set position run
  completedAt : e'.completedAt = e.completedAt

section Returns

variable {e e' : Execution} {position : Nat} {task : Task} {message : String} {returned : Run}

theorem returns_returning (h : e.joined.length ≤ position) :
    Returns position task returned e (e.returning position task returned) :=
  ⟨rfl, rfl, rfl, rfl, rfl, (List.set_eq_of_length_le h).symm, rfl⟩

theorem Returns.task_self (h : Returns position task returned e e')
    (ht : e.tasks[position]? = some task) :
    e'.tasks[position]? = some { task with stage := .finished returned } := by
  simp [h.tasks, (List.getElem?_eq_some_iff.mp ht).choose]

theorem Returns.task_ne (h : Returns position task returned e e') {other : Nat}
    (hp : position ≠ other) : e'.tasks[other]? = e.tasks[other]? := by
  rw [h.tasks, List.getElem?_set_ne hp]

/-- A task that is over gets no turns, so the other tasks find what they share as it would be. -/
theorem Returns.turn (h : Returns position task returned e e') (ht : e.tasks[position]? = some task)
    (hs : task.stage = .aborted message) (other : Nat) (reply : Reply) :
    Returns position task returned (e.turn other reply) (e'.turn other reply) := by
  by_cases hp : position = other
  · subst hp
    rwa [turn_of_isOver ht (by simp [Task.isOver, hs]),
      turn_of_isOver (h.task_self ht) (by simp [Task.isOver])]
  · have hsame := h.task_ne hp
    cases hother : e.tasks[other]? with
    | none => rwa [turn_eq_self hother, turn_eq_self (hsame.trans hother)]
    | some task' =>
      rw [turn_eq hother, turn_eq (hsame.trans hother), h.job, h.shared]
      exact
        { h with
          job := rfl
          shared := rfl
          tasks := by rw [h.tasks, List.set_comm _ _ hp] }

theorem set_concat_of_ne {α : Type} {as : List α} (a b : α) (h : position ≠ as.length) :
    (as ++ [a]).set position b = as.set position b ++ [a] := by
  rcases Nat.lt_or_gt_of_ne h with hlt | hgt
  · exact List.set_append_left position b hlt
  · rw [List.set_eq_of_length_le (by simpa using Nat.succ_le_of_lt hgt),
      List.set_eq_of_length_le (Nat.le_of_lt hgt)]

theorem Returns.join (h : Returns position task returned e e') (ht : e.tasks[position]? = some task)
    (hs : task.stage = .aborted message) : Returns position task returned e.join e'.join := by
  have hlength : e'.joined.length = e.joined.length := by rw [h.joined, List.length_set]
  by_cases hp : position = e.joined.length
  · have hself := h.task_self ht
    subst hp
    have hjoined : e'.joined = e.joined :=
      h.joined.trans (List.set_eq_of_length_le (Nat.le_refl _))
    have hjoin : e.join = { e with
        joined := e.joined ++ [abortedRun task.plan message e.shared.scene.clock]
        log := e.log ++ [⟨some e.joined.length,
          .event (.runFinished task.plan (abortedStatus message))⟩] } := by
      simp [Execution.join, ht, hs]
    have hjoin' : e'.join = { e' with joined := e'.joined ++ [returned] } := by
      simp [Execution.join, hlength, hself]
    rw [hjoin, hjoin']
    exact { h with joined := by simp [hjoined] }
  · have hsame : e'.tasks[e'.joined.length]? = e.tasks[e.joined.length]? := by
      rw [hlength, h.task_ne hp]
    unfold Execution.join
    simp only [hsame, h.completedAt, h.shared]
    split
    · next task' ht' =>
      split
      · exact
          { h with
            shared := rfl
            completedAt := rfl
            joined := by rw [h.joined, set_concat_of_ne _ _ hp] }
      · exact
          { h with
            shared := rfl
            completedAt := rfl
            joined := by rw [h.joined, set_concat_of_ne _ _ hp] }
      · exact h
    · split
      · exact h
      · exact { h with shared := rfl, completedAt := rfl }

theorem Returns.move (h : Returns position task returned e e') (ht : e.tasks[position]? = some task)
    (hs : task.stage = .aborted message) (move : Move) :
    Returns position task returned (e.move move) (e'.move move) := by
  cases move with
  | cancel => exact { h with shared := by simp only [Execution.move, h.shared] }
  | tick now => exact { h with shared := by simp only [Execution.move, h.shared] }
  | turn other reply => exact h.turn ht hs other reply
  | join => exact h.join ht hs

theorem task_move_of_isOver (ht : e.tasks[position]? = some task) (hover : task.isOver)
    (move : Move) : (e.move move).tasks[position]? = some task := by
  rcases e.tasks_move move position with hsame | ⟨reply, old, -, hold, hnew⟩
  · rw [hsame, ht]
  · obtain rfl : old = task := by simpa [ht] using hold.symm
    rw [hnew, Task.after_of_isOver hover]

theorem Returns.run (h : Returns position task returned e e') (ht : e.tasks[position]? = some task)
    (hs : task.stage = .aborted message) (moves : List Move) :
    Returns position task returned (e.run moves) (e'.run moves) := by
  induction moves generalizing e e' with
  | nil => exact h
  | cons move moves ih =>
    have hover : task.isOver := by simp [Task.isOver, hs]
    exact ih (h.move ht hs move) (task_move_of_isOver ht hover move)

/-- The report of an execution in which a task returned a run. -/
theorem Returns.report? (h : Returns position task returned e e') {report : Report}
    (hreport : e.report? = some report) :
    e'.report? = some { report with
      runs := report.runs.set position returned
      status := .ofRuns ((report.runs.set position returned).map (·.status)) } := by
  obtain ⟨now, hnow, rfl⟩ := Option.map_eq_some_iff.mp hreport
  simp only [Execution.report?, h.completedAt, hnow, Option.map_some, h.id, h.job, h.startedAt,
    h.joined, status]

end Returns

/-! ### From the ends of the tasks to the report -/

theorem completedAt_join {e : Execution} (h : e.completedAt.isSome) :
    e.join.completedAt.isSome := by
  have hj := e.joins_join
  generalize e.join = next at hj ⊢
  cases hj with
  | completed _ hnone => rw [hnone] at h; cases h
  | _ => exact h

theorem completedAt_joins {e : Execution} (h : e.completedAt.isSome) (n : Nat) :
    (e.run (List.replicate n .join)).completedAt.isSome := by
  induction n generalizing e with
  | zero => exact h
  | succ n ih => exact ih (completedAt_join h)

theorem completedAt_join_of_none {e : Execution} (h : e.tasks[e.joined.length]? = none) :
    e.join.completedAt.isSome := by
  unfold join
  simp only [h]
  cases hc : e.completedAt <;> simp [hc]

theorem join_of_isOver {e : Execution} {task : Task} (ht : e.tasks[e.joined.length]? = some task)
    (hover : task.isOver) :
    e.join.tasks = e.tasks ∧ e.join.joined.length = e.joined.length + 1 := by
  unfold join
  simp only [ht]
  cases hs : task.stage with
  | finished run => exact ⟨rfl, List.length_append⟩
  | aborted message => exact ⟨rfl, List.length_append⟩
  | _ => simp [Task.isOver, hs] at hover

/-- Once all tasks are over, as many joins as there are tasks, and one more, give a report. -/
theorem completedAt_of_isOver {e : Execution} (hover : ∀ task ∈ e.tasks, task.isOver) {n : Nat}
    (hn : e.tasks.length ≤ e.joined.length + n) :
    (e.run (List.replicate (n + 1) .join)).completedAt.isSome := by
  induction n generalizing e with
  | zero => exact completedAt_join_of_none (List.getElem?_eq_none hn)
  | succ n ih =>
    rw [List.replicate_succ, run_cons]
    cases ht : e.tasks[e.joined.length]? with
    | none => exact completedAt_joins (completedAt_join_of_none ht) (n + 1)
    | some task =>
      obtain ⟨htasks, hlength⟩ := join_of_isOver ht (hover task (List.mem_of_getElem? ht))
      refine ih ?_ ?_
      · rw [Execution.move, htasks]
        exact hover
      · rw [Execution.move, htasks, hlength]
        omega

/-! ### The report of an execution -/

/-- What a report tells of each plan and of them all, whatever the order of the moves. -/
structure Complete (job : Job) (event : String) (id : Ident) (shared : Shared) (moves : List Move)
    (report : Report) : Prop where
  /-- One run for each plan, in the order of the plans. -/
  plans : event ∈ job.workflow.triggers → report.runs.map (·.plan) = job.workflow.plans
  untriggered : event ∉ job.workflow.triggers → report.runs = [] ∧ report.status = .completed
  /-- The run of a task that returned is what it returned. -/
  returned : ∀ (position : Nat) (task : Task) (run : Run),
    ((start job event id shared).run moves).tasks[position]? = some task →
    task.stage = .finished run → report.runs[position]? = some run
  /-- The run of a task that panicked says so. -/
  panicked : ∀ (position : Nat) (task : Task) (message : String),
    ((start job event id shared).run moves).tasks[position]? = some task →
    task.stage = .aborted message →
    ∃ run, report.runs[position]? = some run ∧ run.plan = task.plan ∧
      run.status = .failed "setup-python" (.aborted (panicText message)) ∧ run.results = []
  /-- There is no other run. -/
  only : ∀ (position : Nat) (run : Run), report.runs[position]? = some run →
    ∃ task, ((start job event id shared).run moves).tasks[position]? = some task ∧ task.isOver
  /-- Had a task that panicked returned any run instead, no other run would differ. -/
  apart : ∀ (before after : List Move) (position : Nat) (task : Task) (message : String)
    (run : Run), moves = before ++ after →
    ((start job event id shared).run before).tasks[position]? = some task →
    task.stage = .aborted message →
    ((start job event id shared).run before).joined.length ≤ position →
    ((((start job event id shared).run before).returning position task run).run after).report? =
      some { report with
        runs := report.runs.set position run
        status := .ofRuns ((report.runs.set position run).map (·.status)) }
  status : report.status.SumsUp report.runs
  /-- The order of the runs does not matter for the status. -/
  shuffled : ∀ runs : List Run, runs.Perm report.runs →
    PipelineStatus.ofRuns (runs.map (·.status)) = report.status

theorem plansFor_of_mem {workflow : Workflow} {event : String} (h : event ∈ workflow.triggers) :
    plansFor workflow event = workflow.plans := by
  refine if_pos ?_
  rw [Workflow.isTriggeredBy, List.any_eq_true]
  exact ⟨event, h, beq_self_eq_true event⟩

theorem plansFor_of_not_mem {workflow : Workflow} {event : String}
    (h : event ∉ workflow.triggers) : plansFor workflow event = [] := by
  refine if_neg fun hany => h ?_
  obtain ⟨trigger, hmem, heq⟩ := List.any_eq_true.mp hany
  exact beq_iff_eq.mp heq ▸ hmem

theorem plans_report {job : Job} {event : String} {id : Ident} {shared : Shared}
    {moves : List Move} {report : Report}
    (hreport : ((start job event id shared).run moves).report? = some report) :
    report.runs.map (·.plan) = plansFor job.workflow event := by
  have hjoined := joined_run (joined_start job event id shared) moves
  have hnarrates := (narrates_start job event id shared).run (joined_start _ _ _ _) moves
  exact (hnarrates.recounts hjoined (plans_run job event id shared moves) (id_run _ moves)
    hreport).plans

theorem complete_of_report {job : Job} {event : String} {id : Ident} {shared : Shared}
    {moves : List Move} {report : Report}
    (hreport : ((start job event id shared).run moves).report? = some report) :
    Complete job event id shared moves report := by
  have hjoined := joined_run (joined_start job event id shared) moves
  obtain ⟨hruns, hlength, hstatus⟩ := report_runs hjoined hreport
  refine
    { plans := fun h => by rw [plans_report hreport, plansFor_of_mem h]
      untriggered := fun h => ?untriggered
      returned := fun position task run ht hs => ?returned
      panicked := fun position task message ht hs => ?panicked
      only := fun position run hrun => ?only
      apart := fun before after position task message run hmoves ht hs hnot => ?apart
      status := hstatus ▸ PipelineStatus.sumsUp_ofRuns report.runs
      shuffled := fun runs hperm => ?shuffled }
  case untriggered =>
    have hnil : report.runs = [] := by
      rw [← List.map_eq_nil_iff, plans_report hreport, plansFor_of_not_mem h]
    exact ⟨hnil, by rw [hstatus, hnil]; rfl⟩
  case returned =>
    obtain ⟨run', hrun, hof⟩ := exists_runOf hjoined hreport ht
    cases hof with
    | finished run' hs' => rw [hrun, Stage.finished.inj (hs.symm.trans hs')]
    | aborted message now hs' => rw [hs] at hs'; cases hs'
  case panicked =>
    obtain ⟨run, hrun, hof⟩ := exists_runOf hjoined hreport ht
    cases hof with
    | finished run hs' => rw [hs] at hs'; cases hs'
    | aborted message' now hs' =>
      obtain rfl := Stage.aborted.inj (hs.symm.trans hs')
      exact ⟨_, hrun, rfl, rfl, rfl⟩
  case only =>
    obtain ⟨task, ht, hof⟩ := hjoined.runs position run (hruns ▸ hrun)
    exact ⟨task, ht, hof.isOver⟩
  case apart =>
    rw [hmoves, run_append] at hreport
    exact ((returns_returning hnot).run ht hs after).report? hreport
  case shuffled =>
    rw [hstatus]
    exact PipelineStatus.ofRuns_perm (hperm.map _)

end Execution

end BuildMatrix
