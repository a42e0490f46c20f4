import BuildMatrix.Proofs.Progress.Outcome

/-!
# Runs of a list of steps

The moves that carry a list of steps out are arbitrary: the list gets its turns, time passes, and
someone may cancel between any two of them. What can be said of a list of steps at any time holds
after every run. A run ends the list if enough commands are answered, or if the list gets a turn
once the cancellation is requested.
-/

namespace BuildMatrix

/-- Whether a move gives a list of steps its turn with an answer. -/
def StepMove.isAnswered : StepMove → Bool
  | .advance reply =>
    match reply.output with
    | .ready _ => true
    | _ => false
  | _ => false

namespace Progress

/-- A bound on the number of turns with an answer that the list still needs. -/
def turnsLeft : Progress → Nat
  | ready _ rest => 2 * rest.length + 1
  | busy _ _ rest _ _ => 2 * rest.length + 2
  | ended .. | aborted _ => 0

theorem turnsLeft_eq_zero_iff (progress : Progress) :
    progress.turnsLeft = 0 ↔ progress.isOver := by
  cases progress <;> simp [turnsLeft, isOver]

theorem turnsLeft_proceed_le (results : List StepResult) (rest : List Step) (result : StepResult) :
    (proceed results rest result).turnsLeft ≤ 2 * rest.length + 1 := by
  unfold proceed
  split <;> simp [turnsLeft]

section
variable (context : RunContext) (reply : Reply) (scene : Scene) (progress : Progress)

/-- A turn never takes the end farther away, and brings it closer if it is given an answer. -/
theorem turnsLeft_advance :
    (progress.advance context reply scene).progress.turnsLeft ≤ progress.turnsLeft ∧
      (∀ answer, reply.output = .ready answer → progress.turnsLeft ≠ 0 →
        (progress.advance context reply scene).progress.turnsLeft < progress.turnsLeft) := by
  cases progress with
  | ready results rest =>
      cases rest with
      | nil => simp [advance, turnsLeft]
      | cons step rest =>
          by_cases hc : scene.cancelled <;> simp [advance, hc, turnsLeft, Nat.mul_add]
  | busy results step rest handed startedAt =>
      obtain ⟨answer, h⟩ := exists_busyTurn context reply scene results step rest handed startedAt
      generalize (busy results step rest handed startedAt).advance context reply scene = turn at h ⊢
      cases h with
      | ends a scene' now _ _ _ _ =>
          have hle := turnsLeft_proceed_le results rest a.result
          have hbusy : (busy results step rest handed startedAt).turnsLeft =
            2 * rest.length + 2 := rfl
          simp only [hbusy]
          exact ⟨by omega, fun _ _ _ => by omega⟩
      | waits now ho _ _ => simp [turnsLeft, ho]
      | panics message now ho => simp [turnsLeft, ho]
  | ended results status => simp [advance, turnsLeft]
  | aborted message => simp [advance, turnsLeft]

/-- Once the cancellation is requested, the list ends at its next turn. -/
theorem isOver_advance_of_cancelled (hc : scene.cancelled) :
    (progress.advance context reply scene).progress.isOver := by
  cases progress with
  | ready results rest => cases rest <;> simp [advance, hc, isOver]
  | busy results step rest handed startedAt =>
      simp [advance, hc, finish, proceed, Step.record, isOver]
  | ended results status => rfl
  | aborted message => rfl

/-- Only a panic of the host aborts a list of steps. -/
theorem panicked_of_aborted {message : String}
    (h : (progress.advance context reply scene).progress = .aborted message) :
    progress = .aborted message ∨ reply.output = .panicked message := by
  cases progress with
  | ready results rest =>
      cases rest with
      | nil => simp [advance] at h
      | cons step rest => by_cases hc : scene.cancelled <;> simp [advance, hc] at h
  | busy results step rest handed startedAt =>
      obtain ⟨answer, hb⟩ := exists_busyTurn context reply scene results step rest handed startedAt
      generalize (busy results step rest handed startedAt).advance context reply scene = turn
        at h hb
      cases hb with
      | ends a scene' now _ _ _ _ =>
          simp only [proceed] at h
          split at h <;> simp at h
      | waits now _ _ _ => simp at h
      | panics message' now ho =>
          simp only [aborted.injEq] at h
          exact .inr (h ▸ ho)
  | ended results status => simp [advance] at h
  | aborted message' => exact .inl (by simpa [advance] using h)

theorem cancelled_advance (hc : scene.cancelled) :
    (progress.advance context reply scene).scene.cancelled := by
  cases progress with
  | ready results rest => cases rest <;> simp [advance, hc]
  | busy results step rest handed startedAt => simp [advance, hc, finish]
  | ended results status => exact hc
  | aborted message => exact hc

theorem not_cancelled_advance (hc : scene.cancelled = false) (hr : reply.cancels = false) :
    (progress.advance context reply scene).scene.cancelled = false := by
  have hafter : (scene.after reply).cancelled = false := by simp [Scene.after, hc, hr]
  cases progress with
  | ready results steps =>
      cases steps with
      | nil => exact hc
      | cons step rest => simp [advance, hc]
  | busy results step rest handed startedAt =>
      simp only [advance, hc, Bool.false_eq_true, if_false]
      split
      · exact hc
      · split <;> exact hafter
  | ended results status => exact hc
  | aborted message => exact hc

end

namespace History

def answer? (context : RunContext) (h : History) : StepMove → Option (Except RunnerError Output)
  | .advance reply => h.progress.answer? context reply h.scene
  | _ => none

def answers (context : RunContext) : History → List StepMove → List (Except RunnerError Output)
  | _, [] => []
  | h, move :: moves =>
    (h.answer? context move).toList ++ answers context (h.move context move) moves

section
variable (context : RunContext) (h : History)

@[simp] theorem run_nil : h.run context [] = h := rfl

@[simp] theorem run_cons (move : StepMove) (moves : List StepMove) :
    h.run context (move :: moves) = (h.move context move).run context moves := rfl

theorem run_append (before after : List StepMove) :
    h.run context (before ++ after) = (h.run context before).run context after :=
  List.foldl_append

variable {context} {h}

theorem told_move {steps : List Step} {answers : List (Except RunnerError Output)}
    (ht : Told context steps h.notices answers h.progress) (move : StepMove) :
    Told context steps (h.move context move).notices
      (answers ++ (h.answer? context move).toList) (h.move context move).progress := by
  cases move with
  | cancel => simpa [History.move, answer?] using ht
  | tick now => simpa [History.move, answer?] using ht
  | advance reply => exact told_advance reply h.scene ht

theorem told_run {steps : List Step} {answers : List (Except RunnerError Output)}
    (ht : Told context steps h.notices answers h.progress) (moves : List StepMove) :
    Told context steps (h.run context moves).notices
      (answers ++ h.answers context moves) (h.run context moves).progress := by
  induction moves generalizing h answers with
  | nil => simpa [History.answers] using ht
  | cons move moves ih =>
      have hnext := ih (told_move ht move)
      rwa [List.append_assoc] at hnext

theorem isOver_move (ho : h.progress.isOver) (move : StepMove) :
    (h.move context move).progress = h.progress := by
  cases move with
  | cancel => rfl
  | tick now => rfl
  | advance reply =>
      cases hp : h.progress with
      | ready results rest => simp [hp, isOver] at ho
      | busy results step rest handed startedAt => simp [hp, isOver] at ho
      | ended results status => simp [History.move, hp, Progress.advance]
      | aborted message => simp [History.move, hp, Progress.advance]

theorem isOver_run (ho : h.progress.isOver) (moves : List StepMove) :
    (h.run context moves).progress = h.progress := by
  induction moves generalizing h with
  | nil => rfl
  | cons move moves ih =>
      have hm : (h.move context move).progress = h.progress := isOver_move ho move
      rw [run_cons, ih (hm ▸ ho), hm]

theorem turnsLeft_move_le (context : RunContext) (h : History) (move : StepMove) :
    (h.move context move).progress.turnsLeft ≤
      h.progress.turnsLeft - if move.isAnswered then 1 else 0 := by
  cases move with
  | cancel => simp [History.move, StepMove.isAnswered]
  | tick now => simp [History.move, StepMove.isAnswered]
  | advance reply =>
      obtain ⟨hle, hlt⟩ := turnsLeft_advance context reply h.scene h.progress
      cases hr : reply.output with
      | pending => simpa [History.move, StepMove.isAnswered, hr] using hle
      | panicked message => simpa [History.move, StepMove.isAnswered, hr] using hle
      | ready answer =>
          have hlt := hlt answer hr
          simp only [History.move, StepMove.isAnswered, hr, if_true]
          omega

theorem turnsLeft_run_le (context : RunContext) (h : History) (moves : List StepMove) :
    (h.run context moves).progress.turnsLeft ≤
      h.progress.turnsLeft - moves.countP StepMove.isAnswered := by
  induction moves generalizing h with
  | nil => simp
  | cons move moves ih =>
      have hm := turnsLeft_move_le context h move
      have hrest := ih (h.move context move)
      rw [run_cons, List.countP_cons]
      cases hb : move.isAnswered <;>
        simp only [hb, if_true, Bool.false_eq_true, if_false] at hm ⊢ <;> omega

theorem panicked_of_aborted_run {message : String} (moves : List StepMove)
    (ha : (h.run context moves).progress = .aborted message) :
    h.progress = .aborted message ∨
      ∃ reply, .advance reply ∈ moves ∧ reply.output = .panicked message := by
  induction moves generalizing h with
  | nil => exact .inl ha
  | cons move moves ih =>
      rcases ih ha with hm | ⟨reply, hr, ho⟩
      · cases move with
        | cancel => exact .inl hm
        | tick now => exact .inl hm
        | advance reply =>
            rcases panicked_of_aborted context reply h.scene h.progress hm with hp | ho
            · exact .inl hp
            · exact .inr ⟨reply, by simp, ho⟩
      · exact .inr ⟨reply, List.mem_cons_of_mem _ hr, ho⟩

theorem isOver_run_of_cancelled {before after : List StepMove} {reply : Reply}
    (hc : (h.run context before).scene.cancelled) :
    (h.run context (before ++ .advance reply :: after)).progress.isOver := by
  have ho := isOver_advance_of_cancelled context reply (h.run context before).scene
    (h.run context before).progress hc
  have hlast : ((h.run context before).move context (.advance reply)).progress.isOver := ho
  rw [run_append, run_cons, isOver_run hlast]
  exact hlast

/-- However the host answers and whenever the cancellation is requested, a list of steps that has
ended tells what happened. Unless the host panics it ends when enough commands are answered, or at
the first turn after the request to cancel. -/
theorem steps_end_faithfully (context : RunContext) (steps : List Step) (scene : Scene)
    (moves : List StepMove) :
    (∀ results status, ((History.start steps scene).run context moves).progress =
        .ended results status →
      Faithful context steps ((History.start steps scene).run context moves).notices
        ((History.start steps scene).answers context moves) results status) ∧
    ((∀ reply message, .advance reply ∈ moves → reply.output ≠ .panicked message) →
      (2 * steps.length + 1 ≤ moves.countP StepMove.isAnswered ∨
        ∃ before reply after, moves = before ++ .advance reply :: after ∧
          ((History.start steps scene).run context before).scene.cancelled) →
      ∃ results status,
        ((History.start steps scene).run context moves).progress = .ended results status) := by
  constructor
  · intro results status he
    have ht := told_run (h := .start steps scene) (told_start context steps) moves
    rw [he] at ht
    obtain ⟨attempts, rest, ha, hending, hs⟩ := ht
    exact ha.faithful hs hending
  · intro hpanic henough
    have hover : ((History.start steps scene).run context moves).progress.isOver := by
      rcases henough with hcount | ⟨before, reply, after, rfl, hc⟩
      · rw [← turnsLeft_eq_zero_iff]
        have hle := turnsLeft_run_le context (.start steps scene) moves
        have hstart : (History.start steps scene).progress.turnsLeft = 2 * steps.length + 1 := rfl
        omega
      · exact isOver_run_of_cancelled hc
    cases hp : ((History.start steps scene).run context moves).progress with
    | ready results rest => simp [hp, isOver] at hover
    | busy results step rest handed startedAt => simp [hp, isOver] at hover
    | ended results status => exact ⟨results, status, rfl⟩
    | aborted message =>
        rcases panicked_of_aborted_run moves hp with hstart | ⟨reply, hr, ho⟩
        · simp [History.start, Progress.start] at hstart
        · exact absurd ho (hpanic reply message hr)

def threeSteps : List Step :=
  [⟨"install", .installDependencies, .package (.installManifest "pins"), 60⟩,
    ⟨"lint", .runTests, .shell "lint" [], 60⟩, ⟨"test", .runTests, .shell "test" [], 60⟩]

def bareContext : RunContext := ⟨⟨[]⟩, ⟨"3.9", "python3.9"⟩, "", .empty⟩

def bareScene : Scene := ⟨.empty, false, .epoch⟩

/-- The first command exits with zero, and someone cancels while the second is in flight. -/
def interruptingMoves : List StepMove :=
  [.advance .none, .advance .none, .advance .none, .advance .none,
    .advance { Reply.none with output := .ready (.ok ⟨some 0, "ok", ""⟩) },
    .advance .none, .advance .none, .cancel, .advance .none]

theorem isFile_bareContext :
    FileSystem.empty.isFile (Path.join bareContext.directory "pins") = false := by
  decide +kernel

theorem steps_end_faithfully_interrupted :
    (∃ results, ((History.start threeSteps bareScene).run bareContext interruptingMoves).progress =
        .ended results (.cancelled (some "test")) ∧
      Faithful bareContext threeSteps
        ((History.start threeSteps bareScene).run bareContext interruptingMoves).notices
        ((History.start threeSteps bareScene).answers bareContext interruptingMoves)
        results (.cancelled (some "test"))) ∧
    ∃ results status, ((History.start threeSteps bareScene).run bareContext
      interruptingMoves).progress = .ended results status := by
  have hended : ((History.start threeSteps bareScene).run bareContext interruptingMoves).progress =
      .ended [⟨"install", .installDependencies, .skipped (.manifestMissing "pins"), "", .epoch,
          .epoch⟩,
        ⟨"lint", .runTests, .succeeded, "ok", .epoch, .epoch⟩,
        ⟨"test", .runTests, .cancelled, "", .epoch, .epoch⟩] (.cancelled (some "test")) := by
    simp [interruptingMoves, threeSteps, History.start, Progress.start, History.move,
      Progress.advance, bareScene, finish, proceed, Step.record, isFile_bareContext, Scene.cancel,
      Scene.after, Reply.none, Step.skipReason?, Step.conclude, Output.succeeded, Output.combined]
  have hpanic : ∀ reply message, .advance reply ∈ interruptingMoves →
      reply.output ≠ .panicked message := by
    intro reply message hr
    simp only [interruptingMoves, List.mem_cons, StepMove.advance.injEq, List.not_mem_nil,
      reduceCtorEq, or_false, false_or] at hr
    rcases hr with rfl | rfl | rfl | rfl | rfl | rfl | rfl | rfl <;> simp [Reply.none]
  refine ⟨⟨_, hended, (steps_end_faithfully _ _ _ _).1 _ _ hended⟩,
    (steps_end_faithfully _ _ _ _).2 hpanic (.inr ⟨interruptingMoves.dropLast, .none, [], rfl, ?_⟩)⟩
  simp [interruptingMoves, threeSteps, History.start, Progress.start, History.move,
    Progress.advance, bareScene, finish, proceed, Step.record, isFile_bareContext, Scene.cancel,
    Scene.after, Reply.none, Step.skipReason?, Step.conclude, Output.succeeded]

end

end History

end Progress

end BuildMatrix
