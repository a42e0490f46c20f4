import BuildMatrix.Proofs.Execution.Cancellation
import BuildMatrix.Proofs.Task.Events

/-!
# The events of an execution

Whatever the order of the turns, the events of a complete execution start with its announcement and
end with its status, and all others belong to its runs. Taken by themselves the events of one run
follow its course from its start to its end. If its task did not panic, they agree with the run in
the report; if it did, the end is told when the task is joined.
-/

namespace BuildMatrix

def Task.panicked (task : Task) : Bool :=
  match task.stage with
  | .aborted _ => true
  | _ => false

namespace Execution

def eventsOf (e : Execution) (position : Nat) : List Event :=
  (e.entriesOf position).filterMap Entry.event?

/-- What the join of a task adds to its events: the end of a run that panicked. -/
def joinEvents (task : Task) : List Event :=
  match task.stage with
  | .aborted message => [.runFinished task.plan (abortedStatus message)]
  | _ => []

/-- The events of each task are told in order, and only a complete execution has told its end. -/
structure Narrates (opening : Event) (e : Execution) : Prop where
  log : ∃ between, e.log = announce opening :: between ++
      (if e.completedAt.isSome then [announce (.pipelineCompleted e.id e.status)] else []) ∧
    ∀ l ∈ between, ∃ position, l.task = some position ∧ position < e.tasks.length
  tasks : ∀ (position : Nat) (task : Task), e.tasks[position]? = some task →
    ∃ told, task.Narrated told ∧
      e.eventsOf position = told ++ if position < e.joined.length then joinEvents task else []

theorem eventsOf_append (e : Execution) (position other : Nat) (entries : List Entry) :
    eventsOf { e with log := e.log ++ entries.map fun entry => ⟨some position, entry⟩ } other =
      e.eventsOf other ++ if other = position then entries.filterMap Entry.event? else [] := by
  simp only [eventsOf, entriesOf, List.filter_append, List.map_append, List.filterMap_append]
  congr 1
  by_cases hp : other = position
  · subst hp
    have hall : (entries.map fun entry => (⟨some other, entry⟩ : LogEntry)).filter
        (fun l => l.task == some other) = entries.map fun entry => ⟨some other, entry⟩ := by
      rw [List.filter_eq_self]
      intro l hl
      obtain ⟨entry, -, rfl⟩ := List.mem_map.mp hl
      simp
    rw [hall, if_pos rfl, List.map_map]
    congr 1
    exact List.map_id _
  · have hnone : (entries.map fun entry => (⟨some position, entry⟩ : LogEntry)).filter
        (fun l => l.task == some other) = [] := by
      rw [List.filter_eq_nil_iff]
      intro l hl
      obtain ⟨entry, -, rfl⟩ := List.mem_map.mp hl
      simp [Ne.symm hp]
    rw [hnone, if_neg hp]
    rfl

theorem eventsOf_announce (e : Execution) (event : Event) (position : Nat) :
    eventsOf { e with log := e.log ++ [announce event] } position = e.eventsOf position := by
  simp [eventsOf, entriesOf, announce]

theorem narrates_start (job : Job) (event : String) (id : Ident) (shared : Shared) :
    Narrates (.pipelineStarted id job.workflow.name (plansFor job.workflow event).length
      job.workflow.steps.length) (start job event id shared) where
  log := ⟨[], rfl, by simp⟩
  tasks position task ht := by
    obtain ⟨plan, rfl⟩ := exists_spawn ht
    refine ⟨[], Task.narrated_spawn _ _, ?_⟩
    simp [eventsOf, entriesOf, start, announce]

section
variable {opening : Event} {e : Execution}

/-- What is written down before the execution is complete stands between its start and its end. -/
theorem Narrates.log_append (h : Narrates opening e) (hc : e.completedAt = none)
    {entries : List LogEntry}
    (he : ∀ l ∈ entries, ∃ position, l.task = some position ∧ position < e.tasks.length) :
    ∃ between, e.log ++ entries = announce opening :: between ∧
      ∀ l ∈ between, ∃ position, l.task = some position ∧ position < e.tasks.length := by
  obtain ⟨between, hlog, hbetween⟩ := h.log
  rw [hc] at hlog
  refine ⟨between ++ entries, by simp [hlog], fun l hl => ?_⟩
  rcases List.mem_append.mp hl with hl | hl
  · exact hbetween l hl
  · exact he l hl

theorem turn_of_isOver {position : Nat} {task : Task} (ht : e.tasks[position]? = some task)
    (hover : task.isOver) (reply : Reply) : e.turn position reply = e := by
  have hset : e.tasks.set position task = e.tasks := by
    obtain ⟨hlt, heq⟩ := List.getElem?_eq_some_iff.mp ht
    rw [← heq, List.set_getElem_self]
  rw [turn_eq ht, Task.after_of_isOver hover, Task.turn_of_isOver hover, hset]
  simp

theorem Narrates.turn (h : Narrates opening e) (hj : Joined e) (position : Nat) (reply : Reply) :
    Narrates opening (e.turn position reply) := by
  cases ht : e.tasks[position]? with
  | none => rwa [turn_eq_self ht]
  | some task =>
      by_cases hover : task.isOver
      · rwa [turn_of_isOver ht hover]
      -- The task is not over, so it is not joined and the execution is not complete.
      have hnot : ¬position < e.joined.length := by
        intro hlt
        obtain ⟨task', ht', hr⟩ := hj.runs position _ (List.getElem?_eq_getElem hlt)
        obtain rfl : task = task' := by simpa [ht] using ht'
        exact hover hr.isOver
      have hlt : position < e.tasks.length := (List.getElem?_eq_some_iff.mp ht).choose
      have hc : e.completedAt = none := by
        rw [← Option.not_isSome_iff_eq_none]
        intro hc
        have hlength := hj.length_eq hc
        omega
      rw [turn_eq ht]
      refine ⟨?_, fun other task' ht' => ?_⟩
      · have hentries : ∀ l ∈ (task.turn e.job reply e.shared).entries.map fun entry =>
            (⟨some position, entry⟩ : LogEntry),
            ∃ position, l.task = some position ∧ position < e.tasks.length := by
          intro l hl
          obtain ⟨entry, -, rfl⟩ := List.mem_map.mp hl
          exact ⟨position, rfl, hlt⟩
        obtain ⟨between, hlog, hbetween⟩ := h.log_append hc hentries
        exact ⟨between, by simp [hlog, hc], by simpa using hbetween⟩
      · have hevents := eventsOf_append e position other (task.turn e.job reply e.shared).entries
        obtain ⟨rfl, rfl⟩ | ⟨hp, ht'⟩ := tasks_set_cases ht'
        · obtain ⟨told, htold, heq⟩ := h.tasks position task ht
          have hturn : (task.after e.job reply e.shared).Narrated _ := Task.narrated_turn htold
          refine ⟨_, hturn, ?_⟩
          rw [if_neg hnot, List.append_nil] at heq ⊢
          rw [if_pos rfl, heq] at hevents
          exact hevents
        · obtain ⟨told, htold, heq⟩ := h.tasks other task' ht'
          rw [if_neg (Ne.symm hp), List.append_nil, heq] at hevents
          exact ⟨told, htold, hevents⟩

/-- A task that is joined next has told nothing of its join before. -/
theorem Narrates.joined_next (h : Narrates opening e) {task : Task} {run : Run}
    (ht : e.tasks[e.joined.length]? = some task) {log : List LogEntry}
    (hlog : ∀ position, eventsOf { e with log := log } position =
      e.eventsOf position ++ if position = e.joined.length then joinEvents task else [])
    (position : Nat) (task' : Task) (ht' : e.tasks[position]? = some task') :
    ∃ told, task'.Narrated told ∧
      eventsOf { e with joined := e.joined ++ [run], log := log } position =
        told ++ if position < (e.joined ++ [run]).length then joinEvents task' else [] := by
  obtain ⟨told, htold, heq⟩ := h.tasks position task' ht'
  refine ⟨told, htold, ?_⟩
  have hsame : eventsOf { e with joined := e.joined ++ [run], log := log } position =
      eventsOf { e with log := log } position := rfl
  rw [hsame, hlog, heq, List.length_append, List.length_singleton]
  rcases Nat.lt_trichotomy position e.joined.length with hlt | rfl | hgt
  · rw [if_pos hlt, if_neg (by omega), if_pos (by omega), List.append_nil]
  · obtain rfl : task = task' := by simpa [ht] using ht'
    rw [if_neg (Nat.lt_irrefl _), if_pos rfl, if_pos (by omega), List.append_nil]
  · rw [if_neg (by omega), if_neg (by omega), if_neg (by omega), List.append_nil]

theorem Narrates.join (h : Narrates opening e) (hj : Joined e) : Narrates opening e.join := by
  have hjoins := e.joins_join
  generalize e.join = next at hjoins ⊢
  have hopen {task : Task} (ht : e.tasks[e.joined.length]? = some task) :
      e.completedAt = none := by
    rw [← Option.not_isSome_iff_eq_none]
    intro hc
    have hlength := hj.length_eq hc
    have hlt := (List.getElem?_eq_some_iff.mp ht).choose
    omega
  cases hjoins with
  | finished task run ht hs =>
      refine ⟨?_, fun position task' ht' => ?_⟩
      · obtain ⟨between, hlog, hbetween⟩ := h.log
        rw [hopen ht] at hlog
        exact ⟨between, by simp [hlog, hopen ht], hbetween⟩
      · have hlog (other : Nat) : eventsOf { e with log := e.log } other =
            e.eventsOf other ++ if other = e.joined.length then joinEvents task else [] := by
          simp [joinEvents, hs]
        exact h.joined_next ht hlog position task' ht'
  | aborted task message ht hs =>
      have hlt := (List.getElem?_eq_some_iff.mp ht).choose
      refine ⟨?_, fun position task' ht' => ?_⟩
      · have hentries : ∀ l ∈ [(⟨some e.joined.length,
            .event (.runFinished task.plan (abortedStatus message))⟩ : LogEntry)],
            ∃ position, l.task = some position ∧ position < e.tasks.length := by
          intro l hl
          rw [List.mem_singleton.mp hl]
          exact ⟨_, rfl, hlt⟩
        obtain ⟨between, hlog, hbetween⟩ := h.log_append (hopen ht) hentries
        exact ⟨between, by simp [hlog, hopen ht], hbetween⟩
      · refine h.joined_next ht (fun other => ?_) position task' ht'
        have hevents := eventsOf_append e e.joined.length other
          [.event (.runFinished task.plan (abortedStatus message))]
        have hjoin : joinEvents task = [.runFinished task.plan (abortedStatus message)] := by
          simp [joinEvents, hs]
        rw [hjoin]
        exact hevents
  | completed hn hc =>
      refine ⟨?_, fun position task' ht' => ?_⟩
      · obtain ⟨between, hlog, hbetween⟩ := h.log
        rw [hc] at hlog
        refine ⟨between, ?_, hbetween⟩
        simp only [hlog, Option.isSome_some, if_true, Option.isSome_none, Bool.false_eq_true,
          if_false, List.append_nil]
        rfl
      · obtain ⟨told, htold, heq⟩ := h.tasks position task' ht'
        refine ⟨told, htold, ?_⟩
        rw [← heq]
        exact eventsOf_announce e _ position
  | waits => exact h

theorem Narrates.move (h : Narrates opening e) (hj : Joined e) (move : Move) :
    Narrates opening (e.move move) := by
  cases move with
  | cancel => exact ⟨h.log, h.tasks⟩
  | tick now => exact ⟨h.log, h.tasks⟩
  | turn position reply => exact h.turn hj position reply
  | join => exact h.join hj

theorem Narrates.run (h : Narrates opening e) (hj : Joined e) (moves : List Move) :
    Narrates opening (e.run moves) := by
  induction moves generalizing e with
  | nil => exact h
  | cons move moves ih => exact ih (h.move hj move) (joined_move hj move)

end

theorem plan_run (job : Job) (event : String) (id : Ident) (shared : Shared) (moves : List Move)
    {position : Nat} {task : Task}
    (ht : ((start job event id shared).run moves).tasks[position]? = some task) :
    (plansFor job.workflow event)[position]? = some task.plan := by
  refine task_run
    (P := fun task => (plansFor job.workflow event)[position]? = some task.plan) ?_ moves ht ?_
  · intro task reply shared h
    exact h
  · intro task ht
    simp only [start, List.getElem?_map, Option.map_eq_some_iff] at ht
    obtain ⟨plan, hplan, rfl⟩ := ht
    exact hplan

theorem plans_run (job : Job) (event : String) (id : Ident) (shared : Shared) (moves : List Move) :
    ((start job event id shared).run moves).tasks.map (·.plan) =
      plansFor job.workflow event := by
  have hlength : ((start job event id shared).run moves).tasks.length =
      (plansFor job.workflow event).length := by
    rw [length_tasks_run]
    simp [start]
  refine List.ext_getElem? fun position => ?_
  rw [List.getElem?_map]
  cases ht : ((start job event id shared).run moves).tasks[position]? with
  | none =>
      rw [List.getElem?_eq_none_iff] at ht
      rw [Option.map_none, List.getElem?_eq_none (by omega)]
  | some task => rw [Option.map_some, plan_run job event id shared moves ht]

theorem id_run (e : Execution) (moves : List Move) : (e.run moves).id = e.id := by
  induction moves generalizing e with
  | nil => rfl
  | cons move moves ih => rw [run_cons, ih, id_move]

/-- The events of a complete execution, in all and run by run. -/
structure Recounts (job : Job) (event : String) (id : Ident) (e : Execution) (report : Report) :
    Prop where
  plans : report.runs.map (·.plan) = plansFor job.workflow event
  /-- All events but the first and the last belong to runs. -/
  log : ∃ between,
    e.log = announce (.pipelineStarted id job.workflow.name report.runs.length
      job.workflow.steps.length) :: between ++ [announce (.pipelineCompleted id report.status)] ∧
    ∀ l ∈ between, ∃ position, l.task = some position ∧ position < report.runs.length
  runs : ∀ (position : Nat) (run : Run), report.runs[position]? = some run →
    ∃ (task : Task) (course : Course), e.tasks[position]? = some task ∧
      e.eventsOf position = course.events run.plan ++ [.runFinished run.plan run.status] ∧
      (task.panicked → course.saved = none) ∧ (task.panicked = false → course.Agrees run)

theorem RunOf.plan_eq {task : Task} {run : Run} (hr : RunOf task run) {told : List Event}
    (ht : task.Narrated told) : run.plan = task.plan := by
  cases hr with
  | finished run hs =>
      simp only [Task.Narrated, hs] at ht
      exact ht.1
  | aborted message now hs => rfl

/-- What is told of a task that is joined is the course of its run. -/
theorem course_of_runOf {task : Task} {run : Run} (hr : RunOf task run) {told : List Event}
    (ht : task.Narrated told) : ∃ course : Course,
      told ++ joinEvents task = course.events run.plan ++ [.runFinished run.plan run.status] ∧
      (task.panicked → course.saved = none) ∧ (task.panicked = false → course.Agrees run) := by
  cases hr with
  | finished run hs =>
      simp only [Task.Narrated, hs] at ht
      obtain ⟨hplan, course, hagrees, rfl⟩ := ht
      refine ⟨course, ?_, ?_, fun _ => hagrees⟩
      · simp [joinEvents, hs, hplan]
      · simp [Task.panicked, hs]
  | aborted message now hs =>
      simp only [Task.Narrated, hs] at ht
      obtain ⟨course, hsaved, rfl⟩ := ht
      refine ⟨course, ?_, fun _ => hsaved, ?_⟩
      · simp [joinEvents, hs, abortedRun]
      · simp [Task.panicked, hs]

theorem Narrates.recounts {job : Job} {event : String} {id : Ident} {e : Execution}
    {report : Report}
    (h : Narrates (.pipelineStarted id job.workflow.name (plansFor job.workflow event).length
      job.workflow.steps.length) e)
    (hjoined : Joined e) (hplans : e.tasks.map (·.plan) = plansFor job.workflow event)
    (hid : e.id = id) (hreport : e.report? = some report) :
    Recounts job event id e report := by
  obtain ⟨hruns, hlength, -⟩ := report_runs hjoined hreport
  obtain ⟨now, hcompleted, rfl⟩ := Option.map_eq_some_iff.mp hreport
  have hcount : (plansFor job.workflow event).length = e.joined.length := by
    rw [← hplans, List.length_map]
    exact hlength.symm
  refine ⟨?_, ?_, fun position run hp => ?_⟩
  · rw [← hplans]
    refine List.ext_getElem? fun position => ?_
    rw [List.getElem?_map, List.getElem?_map]
    cases ht : e.tasks[position]? with
    | none =>
        rw [List.getElem?_eq_none_iff] at ht
        rw [List.getElem?_eq_none (by omega), Option.map_none, Option.map_none]
    | some task =>
        obtain ⟨run, hrun, hr⟩ := exists_runOf hjoined hreport ht
        obtain ⟨told, htold, -⟩ := h.tasks position task ht
        rw [hrun, Option.map_some, Option.map_some, hr.plan_eq htold]
  · obtain ⟨between, hlog, hbetween⟩ := h.log
    refine ⟨between, ?_, fun l hl => ?_⟩
    · rw [hlog, hcompleted, hcount, hid]
      simp
    · rw [hlength]
      exact hbetween l hl
  · obtain ⟨task, ht, hr⟩ := hjoined.runs position run hp
    obtain ⟨told, htold, hevents⟩ := h.tasks position task ht
    obtain ⟨course, hcourse, hpanicked, hagrees⟩ := course_of_runOf hr htold
    have hlt : position < e.joined.length := (List.getElem?_eq_some_iff.mp hp).choose
    rw [if_pos hlt, hcourse] at hevents
    exact ⟨task, course, ht, hevents, hpanicked, hagrees⟩

/-- The host finds an interpreter, and panics when a command is handed over. -/
def panickingReply : Reply :=
  { goodReply with output := .panicked "out of memory" }

end Execution

end BuildMatrix
