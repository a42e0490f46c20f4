import BuildMatrix.Execution.Schedule
import BuildMatrix.Proofs.Execution.Completeness

/-!
# Executions that end

A host that answers each request, or cancels, brings every task to its end in a bounded number of
turns of the task, whatever the order of the turns. The deterministic schedule gives each task that
many turns, so it ends with a report.
-/

namespace BuildMatrix

def Answer.isGiven {α ε : Type} : Answer α ε → Bool
  | pending => false
  | _ => true

theorem Answer.not_isGiven_pending {α ε : Type} : ¬(pending : Answer α ε).isGiven := nofun

/-- The reply gives what a task waits for in a stage, or cancels. -/
def Reply.Settles (reply : Reply) : Stage → Prop
  | .provisioning .. => reply.cancels ∨ reply.toolchain.isGiven
  | .stepping _ _ (.busy ..) => reply.cancels ∨ reply.output.isGiven
  | _ => True

theorem Reply.settles_of_given {reply : Reply}
    (h : reply.toolchain.isGiven ∧ reply.output.isGiven) (stage : Stage) :
    reply.Settles stage := by
  cases stage with
  | provisioning version workspace asked => exact .inr h.1
  | stepping setup cache progress =>
    cases progress with
    | busy results step rest handed startedAt => exact .inr h.2
    | _ => trivial
  | _ => trivial

/-! ### The turns that are left -/

namespace Progress

def turnsToEnd (cancelled : Bool) : Progress → Nat
  | ready _ rest => 3 * rest.length + 1
  | busy _ _ rest _ _ => 3 * rest.length + if cancelled then 2 else 3
  | ended .. | aborted _ => 0

theorem turnsToEnd_of_isOver {progress : Progress} (h : progress.isOver) (cancelled : Bool) :
    progress.turnsToEnd cancelled = 0 := by
  cases progress <;> simp_all [isOver, turnsToEnd]

theorem turnsToEnd_proceed_le (results : List StepResult) (rest : List Step) (result : StepResult)
    (cancelled : Bool) :
    (proceed results rest result).turnsToEnd cancelled ≤ 3 * rest.length + 1 := by
  unfold proceed
  split <;> simp [turnsToEnd]

/-- The signal to cancel takes no turn more than an answer does. -/
theorem turnsToEnd_cancelled_le (progress : Progress) (cancelled : Bool) :
    progress.turnsToEnd true ≤ progress.turnsToEnd cancelled := by
  cases progress <;> cases cancelled <;> simp [turnsToEnd]

theorem turnsToEnd_advance (context : RunContext) (reply : Reply) (scene : Scene)
    (progress : Progress)
    (h : ∀ results step rest handed startedAt,
      progress = .busy results step rest handed startedAt → reply.cancels ∨ reply.output.isGiven) :
    (progress.advance context reply scene).progress.turnsToEnd
        (progress.advance context reply scene).scene.cancelled ≤
      progress.turnsToEnd scene.cancelled - 1 := by
  by_cases hc : scene.cancelled
  · rw [turnsToEnd_of_isOver (isOver_advance_of_cancelled context reply scene progress hc)]
    exact Nat.zero_le _
  have hc : scene.cancelled = false := by simpa using hc
  cases progress with
  | ready results rest =>
    cases rest with
    | nil => exact Nat.zero_le _
    | cons step rest =>
      simp only [advance, hc, Bool.false_eq_true, if_false, turnsToEnd, List.length_cons]
      omega
  | busy results step rest handed startedAt =>
    obtain ⟨answer, hb⟩ := exists_busyTurn context reply scene results step rest handed startedAt
    generalize (busy results step rest handed startedAt).advance context reply scene = turn at hb ⊢
    rw [hc]
    cases hb with
    | ends a scene' now _ _ _ =>
      have hbusy : (busy results step rest handed startedAt).turnsToEnd false =
        3 * rest.length + 3 := rfl
      have hle := turnsToEnd_proceed_le results rest a.result scene'.cancelled
      rw [hbusy]
      exact hle.trans (by omega)
    | waits now ho _ _ =>
      -- The command has no answer, so the reply cancels.
      have hcancels : reply.cancels := by
        refine (h _ _ _ _ _ rfl).resolve_right ?_
        rw [ho]
        exact Answer.not_isGiven_pending
      simp [turnsToEnd, Scene.after, hcancels]
    | panics message now _ => exact Nat.zero_le _
  | ended results status => exact Nat.zero_le _
  | aborted message => exact Nat.zero_le _

end Progress

namespace Stage

def turnsToEnd (workflow : Workflow) (cancelled : Bool) : Stage → Nat
  | spawned => 3 * workflow.steps.length + workflow.cache.restoreKeys.length + 15
  | begun => 3 * workflow.steps.length + workflow.cache.restoreKeys.length + 14
  | staging _ => 3 * workflow.steps.length + workflow.cache.restoreKeys.length + 13
  | provisioning .. => 3 * workflow.steps.length + workflow.cache.restoreKeys.length +
    if cancelled then 11 else 12
  | provisioned _ => 3 * workflow.steps.length + workflow.cache.restoreKeys.length + 10
  | lookingUp _ _ none => 3 * workflow.steps.length + workflow.cache.restoreKeys.length + 9
  | lookingUp _ _ (some stems) => 3 * workflow.steps.length + stems.length + 7
  | restoring .. => 3 * workflow.steps.length + 6
  | stepping _ _ progress => progress.turnsToEnd cancelled + 4
  | packing .. => 3
  | saving .. => 2
  | closing .. => 1
  | finished _ | aborted _ => 0

theorem turnsToEnd_cancelled_le (workflow : Workflow) (stage : Stage) (cancelled : Bool) :
    stage.turnsToEnd workflow true ≤ stage.turnsToEnd workflow cancelled := by
  cases stage with
  | provisioning version workspace asked => cases cancelled <;> simp [turnsToEnd]
  | stepping setup cache progress =>
    exact Nat.add_le_add_right (progress.turnsToEnd_cancelled_le cancelled) 4
  | lookingUp setup key stems => cases stems <;> exact Nat.le_refl _
  | _ => exact Nat.le_refl _

theorem turnsToEnd_afterSteps_le (workflow : Workflow) (setup : Setup) (cache : RestoredCache)
    (progress : Progress) (cancelled : Bool) :
    (Task.afterSteps setup cache progress).turnsToEnd workflow cancelled ≤
      if progress.turnsToEnd cancelled = 0 then 3 else progress.turnsToEnd cancelled + 4 := by
  unfold Task.afterSteps
  cases progress with
  | ready results rest => simp [turnsToEnd, Progress.turnsToEnd]
  | busy results step rest handed startedAt =>
    cases cancelled <;> simp [turnsToEnd, Progress.turnsToEnd]
  | ended results status =>
    split <;> (try split) <;> simp_all [turnsToEnd, Progress.turnsToEnd]
  | aborted message => simp [turnsToEnd]

theorem isOver_of_turnsToEnd {workflow : Workflow} {cancelled : Bool} {task : Task}
    (h : task.stage.turnsToEnd workflow cancelled = 0) : task.isOver := by
  unfold Task.isOver
  cases hs : task.stage with
  | finished run => rfl
  | aborted message => rfl
  | lookingUp setup key stems => cases stems <;> simp [hs, turnsToEnd] at h
  | provisioning version workspace asked => cases cancelled <;> simp [hs, turnsToEnd] at h
  | _ => simp [hs, turnsToEnd] at h

end Stage

/-- A turn with a reply that settles what the task waits for brings its end closer. -/
theorem Task.turnsToEnd_turn (job : Job) {reply : Reply} (shared : Shared) {task : Task}
    (h : reply.Settles task.stage) :
    (task.turn job reply shared).stage.turnsToEnd job.workflow
        (task.turn job reply shared).shared.scene.cancelled ≤
      task.stage.turnsToEnd job.workflow shared.scene.cancelled - 1 := by
  have ht := takes_turn job reply shared task
  generalize task.turn job reply shared = turn at ht ⊢
  generalize task.stage = stage at ht h ⊢
  cases ht with
  | provisioningWaits version workspace asked hc hpending =>
    have hcancels : reply.cancels := by
      refine Or.resolve_right h ?_
      rw [hpending]
      exact Answer.not_isGiven_pending
    simp [Stage.turnsToEnd, Scene.after, afterReply, hcancels, hc]
  | provisioningCancelled version workspace asked hc => simp [Stage.turnsToEnd, hc]
  | notFound setup key _ =>
    have hlength := length_stemsFor_le job.workflow.cache key
    simp only [Stage.turnsToEnd]
    omega
  | stepped setup cache progress turn hturn _ =>
    have hle := Progress.turnsToEnd_advance (context job task.plan setup) reply shared.scene
      progress fun _ _ _ _ _ hp => by subst hp; exact h
    rw [hturn] at hle
    have hafter := Stage.turnsToEnd_afterSteps_le job.workflow setup cache turn.progress
      turn.scene.cancelled
    have hstage : (Stage.stepping setup cache progress).turnsToEnd job.workflow
        shared.scene.cancelled = progress.turnsToEnd shared.scene.cancelled + 4 := rfl
    rw [hstage]
    refine hafter.trans ?_
    split <;> omega
  | staged version files workspace _ =>
    simp only [Stage.turnsToEnd]
    split <;> omega
  | withoutKey setup e _ =>
    simp only [Stage.turnsToEnd, Progress.start, Progress.turnsToEnd]
    omega
  | found setup key entry _ =>
    simp only [Stage.turnsToEnd]
    omega
  | notFoundOther setup key stem stems _ =>
    simp only [Stage.turnsToEnd, List.length_cons]
    omega
  | ended stage hover => rcases hover with ⟨run, rfl⟩ | ⟨message, rfl⟩ <;> exact Nat.le_refl _
  | _ => simp_all [Stage.turnsToEnd, setupFailed, Progress.turnsToEnd, Progress.start]

namespace Execution

/-- The reply of a turn settles what the task waits for. -/
def Settles (e : Execution) : Move → Prop
  | .turn position reply => ∀ task, e.tasks[position]? = some task → reply.Settles task.stage
  | _ => True

/-- Each turn settles what its task waits for when it gets the turn. -/
def Settled : Execution → List Move → Prop
  | _, [] => True
  | e, move :: moves => e.Settles move ∧ Settled (e.move move) moves

theorem settled_append {e : Execution} {before after : List Move} :
    e.Settled (before ++ after) ↔ e.Settled before ∧ (e.run before).Settled after := by
  induction before generalizing e with
  | nil => simp [Settled]
  | cons move before ih => simp [Settled, ih, and_assoc]

theorem settled_of_given {e : Execution} {moves : List Move}
    (h : ∀ position reply, .turn position reply ∈ moves →
      reply.toolchain.isGiven ∧ reply.output.isGiven) : e.Settled moves := by
  induction moves generalizing e with
  | nil => trivial
  | cons move moves ih =>
    refine ⟨?_, ih fun position reply hmem => h position reply (List.mem_cons_of_mem _ hmem)⟩
    cases move with
    | turn position reply =>
      intro task _
      exact Reply.settles_of_given (h position reply List.mem_cons_self) task.stage
    | _ => trivial

def turnsToEnd (e : Execution) (position : Nat) : Nat :=
  match e.tasks[position]? with
  | none => 0
  | some task => task.stage.turnsToEnd e.job.workflow e.shared.scene.cancelled

section
variable {e : Execution} {moves : List Move}

/-- A move that gives a task no turn takes its end no farther away. -/
theorem turnsToEnd_of_same_task {move : Move} {position : Nat}
    (ht : (e.move move).tasks[position]? = e.tasks[position]?) :
    (e.move move).turnsToEnd position ≤ e.turnsToEnd position := by
  unfold turnsToEnd
  rw [ht, job_move]
  cases e.tasks[position]? with
  | none => exact Nat.le_refl _
  | some task =>
    cases hafter : (e.move move).shared.scene.cancelled with
    | true => exact task.stage.turnsToEnd_cancelled_le e.job.workflow _
    | false =>
      have hbefore : e.shared.scene.cancelled = false := by
        rw [← Bool.not_eq_true]
        intro hc
        rw [e.cancelled_move move hc] at hafter
        cases hafter
      rw [hbefore]

theorem turnsToEnd_move {move : Move} (h : e.Settles move) (position : Nat) :
    (e.move move).turnsToEnd position ≤
      e.turnsToEnd position - if move.isTurnOf position then 1 else 0 := by
  cases hturn : move.isTurnOf position with
  | false =>
    refine turnsToEnd_of_same_task ?_
    rcases e.tasks_move move position with hsame | ⟨reply, task, rfl, -, -⟩
    · exact hsame
    · simp [Move.isTurnOf] at hturn
  | true =>
    cases move with
    | turn other reply =>
      obtain rfl : other = position := by simpa [Move.isTurnOf] using hturn
      cases ht : e.tasks[other]? with
      | none =>
        have hzero : e.turnsToEnd other = 0 := by simp [turnsToEnd, ht]
        rw [Execution.move, turn_eq_self ht, hzero]
        exact Nat.zero_le _
      | some task =>
        have hle := Task.turnsToEnd_turn e.job e.shared (h task ht)
        have hnow : e.turnsToEnd other =
            task.stage.turnsToEnd e.job.workflow e.shared.scene.cancelled := by
          simp only [turnsToEnd, ht]
        have hnext := tasks_turn ht reply
        rw [hnow, turnsToEnd, hnext, job_move]
        rw [Execution.move, turn_eq ht]
        exact hle
    | _ => simp [Move.isTurnOf] at hturn

theorem turnsToEnd_run (h : e.Settled moves) (position : Nat) :
    (e.run moves).turnsToEnd position ≤
      e.turnsToEnd position - moves.countP (Move.isTurnOf position) := by
  induction moves generalizing e with
  | nil => exact Nat.le_refl _
  | cons move moves ih =>
    have hmove := turnsToEnd_move h.1 position
    have hrest := ih h.2
    rw [run_cons, List.countP_cons]
    omega

theorem isOver_of_settled (h : e.Settled moves) {position : Nat}
    (hcount : e.turnsToEnd position ≤ moves.countP (Move.isTurnOf position)) :
    (e.run moves).isOver position := by
  have hle := turnsToEnd_run h position
  rw [Nat.sub_eq_zero_of_le hcount] at hle
  have hzero := Nat.le_zero.mp hle
  unfold isOver
  cases ht : (e.run moves).tasks[position]? with
  | none => rfl
  | some task =>
    rw [turnsToEnd, ht] at hzero
    exact Stage.isOver_of_turnsToEnd hzero

theorem isOver_run {position : Nat} (h : e.isOver position) (moves : List Move) :
    (e.run moves).isOver position := by
  induction moves generalizing e with
  | nil => exact h
  | cons move moves ih =>
    refine ih ?_
    unfold isOver at h ⊢
    cases ht : e.tasks[position]? with
    | none =>
      have hnone : (e.move move).tasks[position]? = none := by
        rw [List.getElem?_eq_none_iff] at ht ⊢
        rwa [length_tasks_move]
      rw [hnone]
    | some task =>
      rw [ht] at h
      rw [task_move_of_isOver ht h move]
      exact h

theorem turnsToEnd_start_le (job : Job) (event : String) (id : Ident) (shared : Shared)
    (position : Nat) :
    (start job event id shared).turnsToEnd position ≤ turnBound job.workflow := by
  unfold turnsToEnd
  cases ht : (start job event id shared).tasks[position]? with
  | none => exact Nat.zero_le _
  | some task =>
    have hjob : (start job event id shared).job = job := rfl
    simp only [stage_start ht, hjob]
    exact Nat.add_le_add_left (by decide) _

/--
Whatever the order of the turns, an execution has a report once each task had as many turns as the
bound and each request was answered or cancelled.
-/
theorem report?_of_settled {job : Job} {event : String} {id : Ident} {shared : Shared}
    (h : (start job event id shared).Settled moves)
    (hcount : ∀ position < (plansFor job.workflow event).length,
      turnBound job.workflow ≤ moves.countP (Move.isTurnOf position)) :
    ((start job event id shared).run (moves ++
      List.replicate ((plansFor job.workflow event).length + 1) .join)).report?.isSome := by
  have hlength : ((start job event id shared).run moves).tasks.length =
      (plansFor job.workflow event).length := by
    rw [length_tasks_run]
    exact List.length_map _
  rw [run_append, report?, Option.isSome_map]
  refine completedAt_of_isOver (fun task hmem => ?_) ?_
  · obtain ⟨position, hlt, rfl⟩ := List.getElem_of_mem hmem
    have hover := isOver_of_settled h
      ((turnsToEnd_start_le job event id shared position).trans (hcount position (hlength ▸ hlt)))
    simpa [isOver, List.getElem?_eq_getElem hlt] using hover
  · rw [hlength]
    exact Nat.le_add_left _ _

end

end Execution

/-! ### The deterministic schedule -/

structure Host.Answers (host : Host) : Prop where
  provision : ∀ files version,
    (host.provision files version).cancels ∨ (host.provision files version).toolchain.isGiven
  command : ∀ files command,
    (host.command files command).cancels ∨ (host.command files command).output.isGiven

namespace Execution

variable {host : Host} {e : Execution}

theorem settles_replyTo (hanswers : host.Answers) (e : Execution) (task : Task) :
    (e.replyTo host task).Settles task.stage := by
  unfold replyTo
  cases task.stage with
  | provisioning version workspace asked => exact hanswers.provision _ _
  | stepping setup cache progress =>
    cases progress with
    | busy results step rest handed startedAt => exact hanswers.command _ _
    | _ => trivial
  | _ => trivial

/-- The schedule gives a task settled turns, until it is told to stop or has given all of them. -/
theorem stepUntil_spec (stop : Execution → Nat → Bool) (hanswers : host.Answers) (fuel : Nat)
    {position : Nat}
    (hp : position < e.tasks.length) :
    ∃ moves, stepUntil host stop fuel e position = e.run moves ∧ e.Settled moves ∧
      (stop (e.run moves) position ∨ fuel ≤ moves.countP (Move.isTurnOf position)) := by
  induction fuel generalizing e with
  | zero => exact ⟨[], rfl, trivial, .inr (Nat.zero_le _)⟩
  | succ fuel ih =>
    cases hstop : stop e position with
    | true => exact ⟨[], by rw [stepUntil, if_pos hstop]; rfl, trivial, .inl hstop⟩
    | false =>
      obtain ⟨task, ht⟩ : ∃ task, e.tasks[position]? = some task :=
        ⟨_, List.getElem?_eq_getElem hp⟩
      have hsettles : e.Settles (.turn position (e.replyTo host task)) := by
        intro task' ht'
        obtain rfl : task = task' := by simpa [ht] using ht'
        exact settles_replyTo hanswers e task
      have hstep : e.step host position = e.move (.turn position (e.replyTo host task)) := by
        simp only [step, ht]
      obtain ⟨moves, heq, hsettled, hend⟩ :=
        ih (e := e.move (.turn position (e.replyTo host task))) (by rwa [length_tasks_move])
      refine ⟨.turn position (e.replyTo host task) :: moves, ?_, ⟨hsettles, hsettled⟩, ?_⟩
      · rw [stepUntil, if_neg (by simp [hstop]), hstep, heq, run_cons]
      · refine hend.imp_right fun hle => ?_
        rw [List.countP_cons_of_pos (by simp [Move.isTurnOf])]
        exact Nat.succ_le_succ hle

theorem foldl_stepUntil_spec (stop : Execution → Nat → Bool) (hanswers : host.Answers) (fuel : Nat)
    {positions : List Nat}
    (hp : ∀ position ∈ positions, position < e.tasks.length) :
    ∃ moves,
      positions.foldl (fun e position => stepUntil host stop fuel e position) e = e.run moves ∧
      e.Settled moves ∧ ∀ position ∈ positions, ∃ before after, moves = before ++ after ∧
        (stop (e.run before) position ∨ fuel ≤ before.countP (Move.isTurnOf position)) := by
  induction positions generalizing e with
  | nil => exact ⟨[], rfl, trivial, nofun⟩
  | cons first positions ih =>
    obtain ⟨now, hnow, hsettled, hend⟩ :=
      stepUntil_spec stop hanswers fuel (hp first List.mem_cons_self)
    obtain ⟨later, hlater, hsettled', hends⟩ := ih (e := e.run now) fun position hmem => by
      rw [length_tasks_run]
      exact hp position (List.mem_cons_of_mem first hmem)
    refine ⟨now ++ later, ?_, settled_append.mpr ⟨hsettled, hsettled'⟩, ?_⟩
    · rw [List.foldl_cons, hnow, hlater, run_append]
    · intro position hmem
      rcases List.mem_cons.mp hmem with rfl | hmem
      · exact ⟨now, later, rfl, hend⟩
      · obtain ⟨before, after, rfl, hstop⟩ := hends position hmem
        refine ⟨now ++ before, after, (List.append_assoc _ _ _).symm, ?_⟩
        rw [run_append]
        refine hstop.imp_right fun hle => ?_
        rw [List.countP_append]
        exact hle.trans (Nat.le_add_left _ _)

/-- On a host that answers or cancels, the schedule is one of the orders of turns and ends with a
report. -/
theorem play_spec (hanswers : host.Answers) (job : Job) (event : String) (id : Ident)
    (shared : Shared) :
    ∃ moves report, (start job event id shared).play host = (start job event id shared).run moves ∧
      ((start job event id shared).run moves).report? = some report := by
  have hbound : ∀ position, (start job event id shared).turnsToEnd position ≤
      turnBound (start job event id shared).job.workflow := turnsToEnd_start_le job event id shared
  generalize start job event id shared = e at hbound ⊢
  have hrange : ∀ position ∈ List.range e.tasks.length, position < e.tasks.length :=
    fun position => List.mem_range.mp
  obtain ⟨staging, hstaging, hsettled, -⟩ :=
    foldl_stepUntil_spec isStaged hanswers (turnBound e.job.workflow) hrange
  obtain ⟨ending, hending, hsettled', hends⟩ :=
    foldl_stepUntil_spec (e := e.run staging) isOver hanswers (turnBound e.job.workflow)
      (by rwa [length_tasks_run])
  have hlength : ((e.run staging).run ending).tasks.length = e.tasks.length := by
    rw [length_tasks_run, length_tasks_run]
  have hover : ∀ task ∈ ((e.run staging).run ending).tasks, task.isOver := by
    intro task hmem
    obtain ⟨position, hlt, rfl⟩ := List.getElem_of_mem hmem
    obtain ⟨before, after, rfl, hstop⟩ := hends position (List.mem_range.mpr (hlength ▸ hlt))
    have hbefore : ((e.run staging).run before).isOver position := by
      rcases hstop with hover | hcount
      · exact hover
      · have hle := (turnsToEnd_run hsettled position).trans (Nat.sub_le _ _)
        exact isOver_of_settled (settled_append.mp hsettled').1
          ((hle.trans (hbound position)).trans hcount)
    have hafter := isOver_run hbefore after
    rw [← run_append] at hafter
    simpa [isOver, List.getElem?_eq_getElem hlt] using hafter
  have hjoins : (((e.run staging).run ending).run
      (List.replicate (e.tasks.length + 1) .join)).report?.isSome := by
    rw [report?, Option.isSome_map]
    exact completedAt_of_isOver hover (by omega)
  obtain ⟨report, hreport⟩ := Option.isSome_iff_exists.mp hjoins
  refine ⟨staging ++ ending ++ List.replicate (e.tasks.length + 1) .join, report, ?_, ?_⟩
  · rw [play, hstaging, hending, run_append, run_append]
  · rwa [run_append, run_append]

end Execution

end BuildMatrix
