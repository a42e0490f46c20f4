import BuildMatrix.Proofs.Execution.Store
import BuildMatrix.Proofs.Task.Cancelled

/-!
# Cancelled executions

The request to cancel may come at any moment and is never taken back. After it no interpreter is
asked for and no command is handed over, whatever the order of the turns. Every run that is
undecided at that moment ends as its stage tells, after a bounded number of its own turns, and
writes nothing to the store.
-/

namespace BuildMatrix

theorem WorkflowConfig.steps_ne_nil {config : WorkflowConfig} {home : String} {workflow : Workflow}
    (h : config.toWorkflow home = .ok workflow) : workflow.steps ≠ [] := by
  simp only [WorkflowConfig.toWorkflow, bind, Except.bind] at h
  repeat (split at h; · cases h)
  cases h
  simp [WorkflowConfig.steps]

def Move.isTurnOf (position : Nat) : Move → Bool
  | .turn p _ => p == position
  | _ => false

/-- Whether the run completed, and has nothing more to write. -/
def Stage.hasCompleted : Stage → Bool
  | .closing _ _ _ status => status == .completed
  | .finished run => run.status == .completed
  | _ => false

theorem Stage.end_of_hasCompleted (job : Job) (plan : Plan) (files? : Option FileSystem)
    {stage : Stage} (h : stage.hasCompleted) :
    ∃ results, stage.End job plan files? results .completed := by
  cases stage with
  | closing workspace cache results status =>
      exact ⟨results, rfl, (by simpa [hasCompleted] using h : status = .completed).symm⟩
  | finished run => exact ⟨run.results, rfl, (by simpa [hasCompleted] using h : _ = _).symm⟩
  | _ => simp [hasCompleted] at h

theorem Stage.eq_finished_of_turnsLeft {policy : CachePolicy} {stage : Stage}
    (h : stage.turnsLeft policy = 0) (hs : stage.isSound) : ∃ run, stage = .finished run := by
  cases stage with
  | finished run => exact ⟨run, rfl⟩
  | aborted message => simp [isSound] at hs
  | lookingUp setup key stems => cases stems <;> simp [turnsLeft] at h
  | _ => simp [turnsLeft] at h

theorem PipelineStatus.ofRuns_of_cancelled {statuses : List RunStatus} {status : RunStatus}
    (hm : status ∈ statuses) (hc : status.isCancelled) : ofRuns statuses = .cancelled := by
  unfold ofRuns
  rw [if_pos (List.any_eq_true.mpr ⟨status, hm, hc⟩)]

namespace Task

theorem hasCompleted_turn {job : Job} {reply : Reply} {shared : Shared} {task : Task}
    (h : task.stage.hasCompleted) : (task.turn job reply shared).stage.hasCompleted := by
  have ht := takes_turn job reply shared task
  generalize task.turn job reply shared = turn at ht ⊢
  generalize task.stage = stage at ht h
  cases ht with
  | closed workspace cache results status => exact h
  | ended stage _ => exact h
  | _ => simp [Stage.hasCompleted] at h

/-- The turn that writes is followed by the end of a completed run. -/
theorem hasCompleted_of_put? {job : Job} {reply : Reply} {shared : Shared} {task : Task}
    {entry : CacheEntry} (h : task.put? shared.scene.clock = some entry) :
    (task.turn job reply shared).stage.hasCompleted := by
  have ht := takes_turn job reply shared task
  generalize task.turn job reply shared = turn at ht ⊢
  unfold put? at h
  generalize task.stage = stage at ht h
  cases ht with
  | saved setup key status results payload store outcome _ => rfl
  | notSaved setup key status results payload e _ => rfl
  | ended stage hover => rcases hover with ⟨run, rfl⟩ | ⟨message, rfl⟩ <;> simp at h
  | _ => simp at h

end Task

namespace Execution

section
variable {e : Execution}

theorem tasks_turn {position : Nat} {task : Task} (ht : e.tasks[position]? = some task)
    (reply : Reply) :
    (e.move (.turn position reply)).tasks[position]? = some (task.after e.job reply e.shared) := by
  have hlt := (List.getElem?_eq_some_iff.mp ht).choose
  simp [Execution.move, turn_eq ht, hlt]

theorem mem_write? {move : Move} {write : Nat × CacheEntry} (h : write ∈ (e.write? move).toList) :
    ∃ reply task, move = .turn write.1 reply ∧ e.tasks[write.1]? = some task ∧
      task.put? e.shared.scene.clock = some write.2 := by
  obtain ⟨position, entry⟩ := write
  cases move with
  | turn position' reply =>
      simp only [write?, Option.mem_toList, Option.bind_eq_bind, Option.bind_eq_some_iff,
        Option.some.injEq, Prod.mk.injEq] at h
      obtain ⟨task, ht, entry', hp, rfl, rfl⟩ := h
      exact ⟨reply, task, rfl, ht, hp⟩
  | cancel => simp [write?] at h
  | tick now => simp [write?] at h
  | join => simp [write?] at h

theorem length_tasks_run (moves : List Move) : (e.run moves).tasks.length = e.tasks.length := by
  induction moves generalizing e with
  | nil => rfl
  | cons move moves ih => rw [run_cons, ih, length_tasks_move]

theorem exists_task_run {position : Nat} {task : Task} (ht : e.tasks[position]? = some task)
    (moves : List Move) : ∃ task', (e.run moves).tasks[position]? = some task' := by
  have hlt := (List.getElem?_eq_some_iff.mp ht).choose
  rw [← length_tasks_run moves] at hlt
  exact ⟨_, List.getElem?_eq_getElem hlt⟩

/-- Only runs that complete write to the store. -/
theorem hasCompleted_of_mem_writes (moves : List Move) {write : Nat × CacheEntry}
    (h : write ∈ e.writes moves) :
    ∃ task, (e.run moves).tasks[write.1]? = some task ∧ task.stage.hasCompleted := by
  induction moves generalizing e with
  | nil => simp [writes] at h
  | cons move moves ih =>
      rcases List.mem_append.mp h with hnow | hlater
      · obtain ⟨reply, task, rfl, ht, hp⟩ := mem_write? hnow
        have hnext := tasks_turn ht reply
        have hcompleted : (task.after e.job reply e.shared).stage.hasCompleted :=
          Task.hasCompleted_of_put? hp
        obtain ⟨task', ht'⟩ := exists_task_run hnext moves
        refine ⟨task', ht', ?_⟩
        refine task_run (P := fun task => task.stage.hasCompleted) ?_ moves ht' ?_
        · exact fun task reply shared h => Task.hasCompleted_turn h
        · intro task'' ht''
          obtain rfl : task.after e.job reply e.shared = task'' := by simpa [hnext] using ht''
          exact hcompleted
      · exact ih hlater

theorem quiet_move (hc : e.shared.scene.cancelled) (move : Move) :
    ∃ later, (e.move move).log = e.log ++ later ∧ ∀ l ∈ later, l.entry.isRequest = false := by
  obtain ⟨later, hlater, hwrites⟩ := e.log_move move
  refine ⟨later, hlater, fun l hl => ?_⟩
  cases hwrites l hl with
  | turn position reply task entry _ _ hentry => exact Task.isRequest_turn hc hentry
  | event position? event => rfl

theorem log_run (hc : e.shared.scene.cancelled) (moves : List Move) :
    ∃ later, (e.run moves).log = e.log ++ later ∧ ∀ l ∈ later, l.entry.isRequest = false := by
  induction moves generalizing e with
  | nil => exact ⟨[], by simp, by simp⟩
  | cons move moves ih =>
      obtain ⟨now, hnow, hquiet⟩ := quiet_move hc move
      obtain ⟨later, hlater, hquiet'⟩ := ih (e.cancelled_move move hc)
      refine ⟨now ++ later, by rw [run_cons, hlater, hnow, List.append_assoc], fun l hl => ?_⟩
      rcases List.mem_append.mp hl with hl | hl
      · exact hquiet l hl
      · exact hquiet' l hl

/-- The files that the next turn of the task at a position finds, if the moves have one. -/
def filesAtTurn? (e : Execution) (position : Nat) : List Move → Option FileSystem
  | [] => none
  | move :: moves =>
    if move.isTurnOf position then some e.shared.scene.files
    else (e.move move).filesAtTurn? position moves

/-- What becomes of a task in moves after the request to cancel, with the files that its next turn
finds. -/
structure Follows (job : Job) (files? : Option FileSystem) (task task' : Task) (turns : Nat) :
    Prop where
  plan : task'.plan = task.plan
  ends : ∀ results status, task'.stage.End job task.plan none results status →
    task.stage.End job task.plan files? results status
  sound : task.stage.isSound → task'.stage.isSound
  turnsLeft : task'.stage.turnsLeft job.workflow.cache ≤
    task.stage.turnsLeft job.workflow.cache - turns

theorem follows_run (hc : e.shared.scene.cancelled) (hsteps : e.job.workflow.steps ≠ [])
    {position : Nat} {task : Task} (ht : e.tasks[position]? = some task) (moves : List Move) :
    ∃ task', (e.run moves).tasks[position]? = some task' ∧
      Follows e.job (e.filesAtTurn? position moves) task task'
        (moves.countP (Move.isTurnOf position)) := by
  induction moves generalizing e task with
  | nil => exact ⟨task, ht, rfl, fun _ _ h => h, fun h => h, Nat.le_refl _⟩
  | cons move moves ih =>
      have hc' := e.cancelled_move move hc
      have hjob := e.job_move move
      have hsteps' : (e.move move).job.workflow.steps ≠ [] := by rwa [hjob]
      cases hm : move.isTurnOf position with
      | false =>
          have ht' : (e.move move).tasks[position]? = some task := by
            rcases e.tasks_move move position with hsame | ⟨reply, old, rfl, -, -⟩
            · rw [hsame, ht]
            · simp [Move.isTurnOf] at hm
          obtain ⟨task', htask', h⟩ := ih hc' hsteps' ht'
          rw [hjob] at h
          exact ⟨task', htask', by simpa [hm, filesAtTurn?] using h⟩
      | true =>
          obtain ⟨reply, rfl⟩ : ∃ reply, move = .turn position reply := by
            cases move <;> simp_all [Move.isTurnOf]
          obtain ⟨task', htask', h⟩ := ih hc' hsteps' (tasks_turn ht reply)
          rw [hjob] at h
          refine ⟨task', htask', h.plan, fun results status he => ?_, fun hs => ?_, ?_⟩
          · rw [filesAtTurn?, if_pos hm]
            exact Task.end_turn hc hsteps (h.ends results status he)
          · exact h.sound (Task.isSound_turn hc hs)
          · have hturn : (task.turn e.job reply e.shared).stage.turnsLeft e.job.workflow.cache ≤
                task.stage.turnsLeft e.job.workflow.cache - 1 := Task.turnsLeft_turn hc
            have hrest := h.turnsLeft
            rw [Task.stage_after] at hrest
            rw [List.countP_cons, hm, if_pos rfl]
            omega

theorem accounted_run (job : Job) (event : String) (id : Ident) (shared : Shared)
    (moves : List Move) {position : Nat} {task : Task}
    (ht : ((start job event id shared).run moves).tasks[position]? = some task) :
    task.stage.Accounted job task.plan := by
  refine task_run (P := fun task => task.stage.Accounted job task.plan) ?_ moves ht ?_
  · exact fun task reply shared h => Task.accounted_turn h
  · intro task ht
    obtain ⟨plan, rfl⟩ := exists_spawn ht
    trivial

end

/-- What comes of a request to cancel, in moves from one execution to another. -/
structure CancelsSafely (job : Job) (moves : List Move) (writes : List (Nat × CacheEntry))
    (e e' : Execution) : Prop where
  /-- No interpreter is asked for, and no command is handed over. -/
  quiet : ∃ later, e'.log = e.log ++ later ∧ ∀ l ∈ later, l.entry.isRequest = false
  ends : ∀ (position : Nat) (task task' : Task) (run : Run), e.tasks[position]? = some task →
    task.stage.isUndecided → e'.tasks[position]? = some task' → task'.stage = .finished run →
    Stage.EndsCancelled job task.plan (e.filesAtTurn? position moves) task.stage run.results
      run.status
  /-- A run ends after a bounded number of its own turns. -/
  finishes : ∀ (position : Nat) (task : Task), e.tasks[position]? = some task →
    task.stage.isUndecided →
    task.stage.turnsLeft job.workflow.cache ≤ moves.countP (Move.isTurnOf position) →
    ∃ task' run, e'.tasks[position]? = some task' ∧ task'.stage = .finished run
  writers : ∀ (position : Nat) (task : Task), e.tasks[position]? = some task →
    task.stage.isUndecided → ∀ write ∈ writes, write.1 ≠ position
  reported : ∀ report, e'.report? = some report → ∀ (position : Nat) (task : Task),
    e.tasks[position]? = some task → task.stage.isUndecided →
    ∃ run, report.runs[position]? = some run ∧
      Stage.EndsCancelled job task.plan (e.filesAtTurn? position moves) task.stage run.results
        run.status ∧
      (run.status.isCancelled → report.status = .cancelled)

/-- Whenever the cancellation is requested and whatever happens later, nothing more is requested of
the host, and the runs that are undecided end cancelled. The only exception is a run that is about
to be staged, and cannot be staged in the files that it finds at its turn. -/
theorem cancels_safely {config : WorkflowConfig} {home : String} {job : Job} {event : String}
    {id : Ident} {shared : Shared} (hconfig : config.toWorkflow home = .ok job.workflow)
    {before : List Move}
    (hcancelled : ((start job event id shared).run before).shared.scene.cancelled)
    (after : List Move) :
    CancelsSafely job after ((start job event id shared).writes (before ++ after))
      ((start job event id shared).run before)
      ((start job event id shared).run (before ++ after)) := by
  have hjob : ((start job event id shared).run before).job = job := by rw [job_run]; rfl
  have hsteps : ((start job event id shared).run before).job.workflow.steps ≠ [] := by
    rw [hjob]
    exact WorkflowConfig.steps_ne_nil hconfig
  have hfollows {position : Nat} {task : Task}
      (ht : ((start job event id shared).run before).tasks[position]? = some task) :
      ∃ task', ((start job event id shared).run (before ++ after)).tasks[position]? = some task' ∧
        Follows job
          (((start job event id shared).run before).filesAtTurn? position after) task task'
          (after.countP (Move.isTurnOf position)) := by
    obtain ⟨task', ht', h⟩ := follows_run hcancelled hsteps ht after
    rw [hjob] at h
    exact ⟨task', by rw [run_append]; exact ht', h⟩
  have hends {position : Nat} {task : Task} {results : List StepResult} {status : RunStatus}
      (ht : ((start job event id shared).run before).tasks[position]? = some task)
      (hu : task.stage.isUndecided)
      (he : task.stage.End job task.plan
        (((start job event id shared).run before).filesAtTurn? position after) results status) :
      Stage.EndsCancelled job task.plan
        (((start job event id shared).run before).filesAtTurn? position after) task.stage results
        status :=
    Stage.endsCancelled_of_end hu (accounted_run job event id shared before ht) he
  refine ⟨?_, ?_, ?_, ?_, ?_⟩
  · rw [run_append]
    exact log_run hcancelled after
  · intro position task task' run ht hu ht' hf
    obtain ⟨task'', ht'', h⟩ := hfollows ht
    obtain rfl : task' = task'' := by simpa [ht'] using ht''
    exact hends ht hu (h.ends _ _ (by rw [hf]; exact ⟨rfl, rfl⟩))
  · intro position task ht hu henough
    obtain ⟨task', ht', h⟩ := hfollows ht
    have hover : task'.stage.turnsLeft job.workflow.cache = 0 := by
      have hleft := h.turnsLeft
      omega
    obtain ⟨run, hf⟩ := Stage.eq_finished_of_turnsLeft hover
      (h.sound (Stage.isSound_of_isUndecided hu))
    exact ⟨task', run, ht', hf⟩
  · rintro position task ht hu write hw rfl
    obtain ⟨task', ht', h⟩ := hfollows ht
    obtain ⟨task'', ht'', hcompleted⟩ := hasCompleted_of_mem_writes _ hw
    obtain rfl : task' = task'' := by simpa [ht'] using ht''
    obtain ⟨results, he⟩ := Stage.end_of_hasCompleted job task.plan none hcompleted
    exact (hends ht hu (h.ends _ _ he)).ne_completed rfl
  · intro report hreport position task ht hu
    obtain ⟨task', ht', h⟩ := hfollows ht
    have hjoined := joined_run (joined_start job event id shared) (before ++ after)
    obtain ⟨run, hrun, hof⟩ := exists_runOf hjoined hreport ht'
    have hsound := h.sound (Stage.isSound_of_isUndecided hu)
    refine ⟨run, hrun, ?_, fun hc => ?_⟩
    · cases hof with
      | finished _ hf => exact hends ht hu (h.ends _ _ (by rw [hf]; exact ⟨rfl, rfl⟩))
      | aborted message now ha => simp [ha, Stage.isSound] at hsound
    · rw [(report_runs hjoined hreport).2.2]
      exact PipelineStatus.ofRuns_of_cancelled (List.mem_map_of_mem (List.mem_of_getElem? hrun)) hc

def builtinWorkflow : Workflow :=
  (({} : WorkflowConfig).toWorkflow "/home").toOption.getD twoRuns.workflow

/-- The first run has a step in flight, the second waits for its interpreter, and the third is about
to be staged when someone cancels. -/
def movesToCancel : List Move :=
  List.replicate 10 (.turn 0 goodReply) ++ [.turn 0 .none] ++
    List.replicate 3 (.turn 1 goodReply) ++ .turn 1 .none ::
    List.replicate 2 (.turn 2 goodReply) ++ [.cancel]

def movesAfterCancel : List Move :=
  alternatingMoves ++ List.replicate 3 (.turn 2 goodReply)

/-- The built-in workflow, cancelled while its runs are at different stages. -/
theorem cancels_safely_builtin :
    ((start ⟨builtinWorkflow, "/package", "/tmp"⟩ "push" .zero freshShared).run
      movesToCancel).tasks.all (fun task => task.stage.isUndecided) ∧
    CancelsSafely ⟨builtinWorkflow, "/package", "/tmp"⟩ movesAfterCancel
      ((start ⟨builtinWorkflow, "/package", "/tmp"⟩ "push" .zero freshShared).writes
        (movesToCancel ++ movesAfterCancel))
      ((start ⟨builtinWorkflow, "/package", "/tmp"⟩ "push" .zero freshShared).run movesToCancel)
      ((start ⟨builtinWorkflow, "/package", "/tmp"⟩ "push" .zero freshShared).run
        (movesToCancel ++ movesAfterCancel)) := by
  have hconfig : ({} : WorkflowConfig).toWorkflow "/home" = .ok builtinWorkflow := by decide +kernel
  have hundecided : ((start ⟨builtinWorkflow, "/package", "/tmp"⟩ "push" .zero freshShared).run
      movesToCancel).tasks.all (fun task => task.stage.isUndecided) := by decide +kernel
  have hcancelled : ((start ⟨builtinWorkflow, "/package", "/tmp"⟩ "push" .zero freshShared).run
      movesToCancel).shared.scene.cancelled := by decide +kernel
  exact ⟨hundecided, cancels_safely hconfig hcancelled movesAfterCancel⟩

end Execution

end BuildMatrix
