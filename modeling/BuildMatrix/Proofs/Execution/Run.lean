import BuildMatrix.Execution.Engine
import BuildMatrix.Proofs.Task.Turn
import Mathlib.Data.List.Induction

/-!
# Runs of an execution

An execution is carried along by arbitrary moves. A move gives one task a turn, joins the next task
or changes only what all tasks share; the job, the plans and the tasks that are over stay as they
are. Runs are joined in the order of the tasks, and each is the run of its task.
-/

namespace BuildMatrix.Execution

section
variable (e : Execution)

@[simp] theorem run_nil : e.run [] = e := rfl

@[simp] theorem run_cons (move : Move) (moves : List Move) :
    e.run (move :: moves) = (e.move move).run moves := rfl

theorem run_append (before after : List Move) :
    e.run (before ++ after) = (e.run before).run after :=
  List.foldl_append

theorem run_concat (moves : List Move) (move : Move) :
    e.run (moves ++ [move]) = (e.run moves).move move := by
  rw [run_append]
  rfl

/-- What holds at the start and is kept by each move holds after every run. -/
theorem run_induction {P : Execution → Prop} {e : Execution} {moves : List Move} (start : P e)
    (step : ∀ done move, done ++ [move] <+: moves → P (e.run done) →
      P ((e.run done).move move)) : P (e.run moves) := by
  induction moves using List.reverseRecOn with
  | nil => exact start
  | append_singleton moves move ih =>
      rw [run_concat]
      refine step moves move List.prefix_rfl (ih fun done move' h => ?_)
      exact step done move' (h.trans (List.prefix_append _ _))

/-- A move of the list has a property, which may refer to the moves before it. -/
def Happens (moves : List Move) (P : List Move → Move → Prop) : Prop :=
  ∃ done move later, moves = done ++ move :: later ∧ P done move

theorem happens_concat (moves : List Move) (move : Move) (P : List Move → Move → Prop) :
    Happens (moves ++ [move]) P ↔ Happens moves P ∨ P moves move := by
  constructor
  · intro h
    obtain ⟨done, move', later, hsplit, hmove⟩ := h
    rcases List.eq_nil_or_concat later with rfl | ⟨later, last, rfl⟩
    · obtain ⟨rfl, hlast⟩ := List.append_inj' hsplit rfl
      obtain rfl := List.singleton_inj.mp hlast
      exact .inr hmove
    · rw [List.concat_eq_append, ← List.cons_append, ← List.append_assoc] at hsplit
      obtain ⟨hmoves, -⟩ := List.append_inj' hsplit rfl
      exact .inl ⟨done, move', later, hmoves, hmove⟩
  · intro h
    cases h with
    | inl hearlier =>
      obtain ⟨done, move', later, rfl, hmove⟩ := hearlier
      exact ⟨done, move', later ++ [move], by simp, hmove⟩
    | inr hnow => exact ⟨moves, move, [], rfl, hnow⟩

theorem Happens.earlier {moves : List Move} {P : List Move → Move → Prop} (h : Happens moves P)
    (move : Move) : Happens (moves ++ [move]) P :=
  (happens_concat moves move P).mpr (.inl h)

theorem Happens.now {moves : List Move} {move : Move} {P : List Move → Move → Prop}
    (h : P moves move) : Happens (moves ++ [move]) P :=
  (happens_concat moves move P).mpr (.inr h)

theorem turn_eq {e : Execution} {position : Nat} {task : Task}
    (h : e.tasks[position]? = some task) (reply : Reply) :
    e.turn position reply =
      { e with
        shared := (task.turn e.job reply e.shared).shared
        tasks := e.tasks.set position (task.after e.job reply e.shared)
        log := e.log ++ (task.turn e.job reply e.shared).entries.map fun entry =>
          ⟨some position, entry⟩ } := by
  simp [Execution.turn, h, Task.after]

theorem turn_eq_self {e : Execution} {position : Nat} (h : e.tasks[position]? = none)
    (reply : Reply) : e.turn position reply = e := by
  simp [Execution.turn, h]

/-- After a turn a task is the one that had the turn or another one, which is as it was. -/
theorem tasks_set_cases {tasks : List Task} {position other : Nat} {next task : Task}
    (h : (tasks.set position next)[other]? = some task) :
    position = other ∧ next = task ∨ position ≠ other ∧ tasks[other]? = some task := by
  by_cases hp : position = other
  · subst hp
    have hlt := (List.getElem?_eq_some_iff.mp h).choose
    rw [List.length_set] at hlt
    rw [List.getElem?_set_self hlt, Option.some_inj] at h
    exact .inl ⟨rfl, h⟩
  · rw [List.getElem?_set_ne hp] at h
    exact .inr ⟨hp, h⟩

inductive Joins (e : Execution) : Execution → Prop
  | finished (task : Task) (run : Run) : e.tasks[e.joined.length]? = some task →
      task.stage = .finished run → Joins e { e with joined := e.joined ++ [run] }
  | aborted (task : Task) (message : String) : e.tasks[e.joined.length]? = some task →
      task.stage = .aborted message →
      Joins e
        { e with
          joined := e.joined ++ [abortedRun task.plan message e.shared.scene.clock]
          log := e.log ++ [⟨some e.joined.length,
            .event (.runFinished task.plan (abortedStatus message))⟩] }
  | completed : e.tasks[e.joined.length]? = none → e.completedAt = none →
      Joins e
        { e with
          log := e.log ++ [announce (.pipelineCompleted e.id e.status)]
          completedAt := some e.shared.scene.clock }
  | waits : Joins e e

theorem joins_join : Joins e e.join := by
  unfold join
  cases ht : e.tasks[e.joined.length]? with
  | some task =>
      cases hs : task.stage with
      | finished run => simpa [ht, hs] using Joins.finished task run ht hs
      | aborted message => simpa [ht, hs] using Joins.aborted task message ht hs
      | _ => simpa [ht, hs] using Joins.waits
  | none =>
      cases hc : e.completedAt with
      | some now => simpa [ht, hc] using Joins.waits
      | none => simpa [ht, hc] using Joins.completed ht hc

/-- What a move can do. A turn at a position without a task does nothing. -/
inductive Moves (e : Execution) : Move → Execution → Prop
  | cancel : Moves e .cancel { e with shared := { e.shared with scene := e.shared.scene.cancel } }
  | tick (now : Instant) :
      Moves e (.tick now)
        { e with shared := { e.shared with scene := { e.shared.scene with clock := now } } }
  | turn (position : Nat) (reply : Reply) (task : Task) : e.tasks[position]? = some task →
      Moves e (.turn position reply)
        { e with
          shared := (task.turn e.job reply e.shared).shared
          tasks := e.tasks.set position (task.after e.job reply e.shared)
          log := e.log ++ (task.turn e.job reply e.shared).entries.map fun entry =>
            ⟨some position, entry⟩ }
  | idle (position : Nat) (reply : Reply) : e.tasks[position]? = none →
      Moves e (.turn position reply) e
  | join (next : Execution) : Joins e next → Moves e .join next

theorem moves_move (move : Move) : e.Moves move (e.move move) := by
  cases move with
  | cancel => exact .cancel
  | tick now => exact .tick now
  | turn position reply =>
      rw [Execution.move]
      cases ht : e.tasks[position]? with
      | none =>
          rw [turn_eq_self ht]
          exact .idle position reply ht
      | some task =>
          rw [turn_eq ht]
          exact .turn position reply task ht
  | join => exact .join _ e.joins_join

@[simp] theorem job_move (move : Move) : (e.move move).job = e.job := by
  have hm := e.moves_move move
  generalize e.move move = next at hm ⊢
  cases hm with
  | join next hj => cases hj <;> rfl
  | _ => rfl

@[simp] theorem job_run (moves : List Move) : (e.run moves).job = e.job := by
  induction moves generalizing e with
  | nil => rfl
  | cons move moves ih => rw [run_cons, ih, job_move]

theorem tasks_move (move : Move) (position : Nat) :
    (e.move move).tasks[position]? = e.tasks[position]? ∨
      ∃ reply task, move = .turn position reply ∧ e.tasks[position]? = some task ∧
        (e.move move).tasks[position]? = some (task.after e.job reply e.shared) := by
  have hm := e.moves_move move
  generalize e.move move = next at hm ⊢
  cases hm with
  | turn position' reply task ht =>
      by_cases hp : position' = position
      · subst hp
        have hlt := (List.getElem?_eq_some_iff.mp ht).choose
        exact .inr ⟨reply, task, rfl, ht, List.getElem?_set_self hlt⟩
      · exact .inl (List.getElem?_set_ne hp)
  | join next hj => cases hj <;> exact .inl rfl
  | _ => exact .inl rfl

theorem length_tasks_move (move : Move) : (e.move move).tasks.length = e.tasks.length := by
  have hm := e.moves_move move
  generalize e.move move = next at hm ⊢
  cases hm with
  | turn position reply task ht => exact List.length_set
  | join next hj => cases hj <;> rfl
  | _ => rfl

theorem id_move (move : Move) : (e.move move).id = e.id := by
  have hm := e.moves_move move
  generalize e.move move = next at hm ⊢
  cases hm with
  | join next hj => cases hj <;> rfl
  | _ => rfl

/-- The signal to cancel is never taken back. -/
theorem cancelled_move (move : Move) (h : e.shared.scene.cancelled) :
    (e.move move).shared.scene.cancelled := by
  have hm := e.moves_move move
  generalize e.move move = next at hm ⊢
  cases hm with
  | cancel => rfl
  | turn position reply task ht => exact Task.cancelled_turn h
  | join next hj => cases hj <;> exact h
  | _ => exact h

/-- What a move writes down: something of the task that it gives a turn, or an event. -/
inductive Writes (e : Execution) (move : Move) : LogEntry → Prop
  | turn (position : Nat) (reply : Reply) (task : Task) (entry : Entry) :
      move = .turn position reply → e.tasks[position]? = some task →
      entry ∈ (task.turn e.job reply e.shared).entries → Writes e move ⟨some position, entry⟩
  | event (position? : Option Nat) (event : Event) : Writes e move ⟨position?, .event event⟩

theorem log_move (move : Move) :
    ∃ later, (e.move move).log = e.log ++ later ∧ ∀ l ∈ later, e.Writes move l := by
  have hm := e.moves_move move
  generalize e.move move = next at hm ⊢
  have hquiet (hlog : next.log = e.log) :
      ∃ later, next.log = e.log ++ later ∧ ∀ l ∈ later, e.Writes move l :=
    ⟨[], by rw [hlog, List.append_nil], by simp⟩
  cases hm with
  | turn position reply task ht =>
      refine ⟨_, rfl, fun l hl => ?_⟩
      obtain ⟨entry, hentry, rfl⟩ := List.mem_map.mp hl
      exact .turn position reply task entry rfl ht hentry
  | join next hj =>
      cases hj with
      | aborted task message _ _ =>
          exact ⟨_, rfl, fun l hl => List.mem_singleton.mp hl ▸ .event _ _⟩
      | completed _ _ => exact ⟨_, rfl, fun l hl => List.mem_singleton.mp hl ▸ .event _ _⟩
      | _ => exact hquiet rfl
  | _ => exact hquiet rfl

theorem mem_entriesOf {e : Execution} {position : Nat} {entry : Entry} :
    entry ∈ e.entriesOf position ↔ ⟨some position, entry⟩ ∈ e.log := by
  simp only [entriesOf, List.mem_map, List.mem_filter, beq_iff_eq]
  constructor
  · rintro ⟨⟨task, _⟩, ⟨hl, rfl⟩, rfl⟩
    exact hl
  · intro hl
    exact ⟨_, ⟨hl, rfl⟩, rfl⟩

theorem exists_spawn {job : Job} {event : String} {id : Ident} {shared : Shared} {position : Nat}
    {task : Task} (ht : (start job event id shared).tasks[position]? = some task) :
    ∃ plan, Task.spawn plan shared.scene.clock = task := by
  simp only [start, List.getElem?_map, Option.map_eq_some_iff] at ht
  obtain ⟨plan, -, hspawn⟩ := ht
  exact ⟨plan, hspawn⟩

theorem stage_start {job : Job} {event : String} {id : Ident} {shared : Shared} {position : Nat}
    {task : Task} (ht : (start job event id shared).tasks[position]? = some task) :
    task.stage = .spawned := by
  obtain ⟨plan, rfl⟩ := exists_spawn ht
  rfl

/-- What every turn of a task keeps holds of the task after every run. -/
theorem task_run {P : Task → Prop} {e : Execution}
    (step : ∀ task reply shared, P task → P (task.after e.job reply shared)) (moves : List Move)
    {position : Nat} {task : Task} (ht : (e.run moves).tasks[position]? = some task)
    (start : ∀ task, e.tasks[position]? = some task → P task) : P task := by
  induction moves generalizing e with
  | nil => exact start task ht
  | cons move moves ih =>
      refine ih (by simpa using step) ht fun task' ht' => ?_
      rcases e.tasks_move move position with hsame | ⟨reply, old, -, hold, hnew⟩
      · exact start task' (hsame ▸ ht')
      · rw [hnew, Option.some.injEq] at ht'
        exact ht' ▸ step old reply e.shared (start old hold)

end

/-- A run that is joined is that of its task, in the order of the tasks. -/
inductive RunOf (task : Task) : Run → Prop
  | finished (run : Run) : task.stage = .finished run → RunOf task run
  | aborted (message : String) (now : Instant) : task.stage = .aborted message →
      RunOf task (abortedRun task.plan message now)

theorem RunOf.isOver {task : Task} {run : Run} (h : RunOf task run) : task.isOver := by
  cases h with
  | finished _ hs => simp [Task.isOver, hs]
  | aborted message now hs => simp [Task.isOver, hs]

structure Joined (e : Execution) : Prop where
  runs : ∀ (position : Nat) (run : Run), e.joined[position]? = some run →
    ∃ task : Task, e.tasks[position]? = some task ∧ RunOf task run
  length_eq : e.completedAt.isSome → e.joined.length = e.tasks.length

theorem joined_start (job : Job) (event : String) (id : Ident) (shared : Shared) :
    Joined (start job event id shared) :=
  ⟨by simp [start], by simp [start]⟩

theorem Joined.length_le {e : Execution} (h : Joined e) : e.joined.length ≤ e.tasks.length := by
  by_contra hlt
  obtain ⟨task, ht, -⟩ := h.runs e.tasks.length _ (List.getElem?_eq_getElem (by omega))
  simp at ht

theorem Joined.concat {e : Execution} (h : Joined e) {task : Task} {run : Run}
    (ht : e.tasks[e.joined.length]? = some task) (hr : RunOf task run) (log : List LogEntry) :
    Joined { e with joined := e.joined ++ [run], log } where
  runs position run' hp := by
    rcases Nat.lt_trichotomy position e.joined.length with hlt | rfl | hgt
    · exact h.runs position run' (by simpa [List.getElem?_append_left hlt] using hp)
    · obtain rfl : run = run' := by simpa using hp
      exact ⟨task, ht, hr⟩
    · have hlength := (List.getElem?_eq_some_iff.mp hp).choose
      simp only [List.length_append, List.length_singleton] at hlength
      omega
  length_eq hc := by
    have hlt := (List.getElem?_eq_some_iff.mp ht).choose
    have hlength := h.length_eq hc
    omega

/-- A task that is over has no turns, so its run stays that of the task. -/
theorem Joined.turn {e : Execution} (h : Joined e) {position : Nat} {task : Task}
    (ht : e.tasks[position]? = some task) (reply : Reply) (shared : Shared)
    (log : List LogEntry) :
    Joined { e with
      shared, tasks := e.tasks.set position (task.after e.job reply e.shared), log } where
  runs i run hi := by
    obtain ⟨joined, hjoined, hr⟩ := h.runs i run hi
    refine ⟨joined, ?_, hr⟩
    by_cases hp : position = i
    · subst hp
      obtain rfl : task = joined := by simpa [ht] using hjoined
      have hlt := (List.getElem?_eq_some_iff.mp ht).choose
      rw [List.getElem?_set_self hlt, Task.after_of_isOver hr.isOver]
    · rw [List.getElem?_set_ne hp]
      exact hjoined
  length_eq hc := (h.length_eq hc).trans List.length_set.symm

theorem joined_move {e : Execution} (h : Joined e) (move : Move) : Joined (e.move move) := by
  have hm := e.moves_move move
  generalize e.move move = next at hm ⊢
  cases hm with
  | cancel => exact ⟨h.runs, h.length_eq⟩
  | tick now => exact ⟨h.runs, h.length_eq⟩
  | turn position reply task ht => exact h.turn ht reply _ _
  | idle position reply ht => exact h
  | join next hj =>
      cases hj with
      | finished task run ht hs => exact h.concat ht (.finished run hs) e.log
      | aborted task message ht hs => exact h.concat ht (.aborted message _ hs) _
      | completed hn hc =>
          refine ⟨h.runs, fun _ => ?_⟩
          have hle := h.length_le
          have hge := List.getElem?_eq_none_iff.mp hn
          exact Nat.le_antisymm hle hge
      | waits => exact h

theorem joined_run {e : Execution} (h : Joined e) (moves : List Move) : Joined (e.run moves) := by
  induction moves generalizing e with
  | nil => exact h
  | cons move moves ih => exact ih (joined_move h move)

theorem report_runs {e : Execution} (h : Joined e) {report : Report}
    (hr : e.report? = some report) :
    report.runs = e.joined ∧ report.runs.length = e.tasks.length ∧
      report.status = .ofRuns (report.runs.map (·.status)) := by
  obtain ⟨now, hc, rfl⟩ := Option.map_eq_some_iff.mp hr
  exact ⟨rfl, h.length_eq (by simp [hc]), rfl⟩

theorem exists_runOf {e : Execution} (h : Joined e) {report : Report}
    (hr : e.report? = some report) {position : Nat} {task : Task}
    (ht : e.tasks[position]? = some task) :
    ∃ run, report.runs[position]? = some run ∧ RunOf task run := by
  obtain ⟨hruns, hlength, -⟩ := report_runs h hr
  have hlt := (List.getElem?_eq_some_iff.mp ht).choose
  rw [hruns] at hlength ⊢
  obtain ⟨run, hrun⟩ : ∃ run, e.joined[position]? = some run :=
    ⟨_, List.getElem?_eq_getElem (by omega)⟩
  obtain ⟨task', ht', hof⟩ := h.runs position run hrun
  obtain rfl : task = task' := by simpa [ht] using ht'
  exact ⟨run, hrun, hof⟩

end BuildMatrix.Execution
