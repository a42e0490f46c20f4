import BuildMatrix.Execution.Progress

/-!
# Accounts of a list of steps

An account tells what became of each step that was attempted: how it ended, whether its command was
handed over, and which answer of the host it was concluded from. The results, the commands and the
notices of a list of steps are all read off one account, whatever the host answers and whenever the
cancellation is requested.
-/

namespace BuildMatrix

namespace Notice

def command? : Notice → Option Command
  | handed command _ => some command
  | _ => none

def isBracket : Notice → Bool
  | handed .. => false
  | _ => true

end Notice

/-- What became of a step. -/
structure Attempt where
  step : Step
  result : StepResult
  handed : Bool
  answer : Option (Except RunnerError Output)

namespace Attempt

/-- A step is skipped for a reason, concluded from an answer, or interrupted. Only a step that is
interrupted may have been handed over without an answer, and only by chance. -/
inductive Sound (context : RunContext) : Attempt → Prop
  | skipped {step : Step} {reason : SkipReason} {files : FileSystem}
      {startedAt finishedAt : Instant} :
      step.skipReason? files context = some reason →
      Sound context ⟨step, step.record (.skipped reason) "" startedAt finishedAt, false, none⟩
  | answered {step : Step} {answer : Except RunnerError Output} {startedAt finishedAt : Instant} :
      Sound context ⟨step,
        step.record (step.conclude (step.command context) answer).1
          (step.conclude (step.command context) answer).2 startedAt finishedAt,
        true, some answer⟩
  | interrupted {step : Step} {handed : Bool} {startedAt finishedAt : Instant} :
      Sound context ⟨step, step.record .cancelled "" startedAt finishedAt, handed, none⟩

theorem Sound.result_step {context : RunContext} {a : Attempt} (h : a.Sound context) :
    a.result.step = a.step.name := by
  cases h <;> rfl

theorem Sound.result_phase {context : RunContext} {a : Attempt} (h : a.Sound context) :
    a.result.phase = a.step.phase := by
  cases h <;> rfl

def commands (context : RunContext) (a : Attempt) : List Command :=
  if a.handed then [a.step.command context] else []

def brackets (a : Attempt) : List Notice := [.started a.step, .finished a.result]

end Attempt

namespace Progress

/-- The answer that one turn takes up: that to the command of the step in flight. -/
def answer? (context : RunContext) (reply : Reply) (scene : Scene) :
    Progress → Option (Except RunnerError Output)
  | busy _ step _ handed _ =>
    if scene.cancelled || (!handed && (step.skipReason? scene.files context).isSome) then none
    else match reply.output with
      | .ready answer => some answer
      | _ => none
  | _ => none

/-- The results, notices and answers of a list of steps are those of its attempts. -/
structure Account (context : RunContext) (attempts : List Attempt) (results : List StepResult)
    (notices : List Notice) (answers : List (Except RunnerError Output)) : Prop where
  sound : ∀ a ∈ attempts, a.Sound context
  results : results = attempts.map (·.result)
  commands : notices.filterMap Notice.command? = attempts.flatMap (Attempt.commands context)
  brackets : notices.filter Notice.isBracket = attempts.flatMap Attempt.brackets
  answers : answers = attempts.filterMap (·.answer)

/-- What has been noticed of a step in flight. -/
structure Opened (context : RunContext) (step : Step) (handed : Bool) (notices : List Notice) :
    Prop where
  commands : notices.filterMap Notice.command? = if handed then [step.command context] else []
  brackets : notices.filter Notice.isBracket = [.started step]

theorem Account.nil (context : RunContext) : Account context [] [] [] [] :=
  ⟨by simp, rfl, rfl, rfl, rfl⟩

theorem Account.close {context : RunContext} {attempts : List Attempt} {results : List StepResult}
    {before during : List Notice} {answers : List (Except RunnerError Output)} {a : Attempt}
    (h : Account context attempts results before answers) (ha : a.Sound context)
    (ho : Opened context a.step a.handed during) :
    Account context (attempts ++ [a]) (results ++ [a.result])
      (before ++ during ++ [.finished a.result]) (answers ++ a.answer.toList) where
  sound := by
    intro b hb
    rcases List.mem_append.mp hb with hb | hb
    · exact h.sound b hb
    · rw [List.mem_singleton.mp hb]; exact ha
  results := by simp [h.results]
  commands := by
    simp [h.commands, ho.commands, Attempt.commands, Notice.command?]
  brackets := by
    simp [h.brackets, ho.brackets, Attempt.brackets, Notice.isBracket]
  answers := by
    cases hx : a.answer <;> simp [h.answers, hx]

/-- How the results of a list of steps that has ended tell its status. -/
inductive Ending : (results : List StepResult) → (rest : List Step) → RunStatus → Prop
  | completed {results : List StepResult} :
      (∀ r ∈ results, r.outcome.isPassing) → Ending results [] .completed
  | between {results : List StepResult} {step : Step} {rest : List Step} :
      (∀ r ∈ results, r.outcome.isPassing) → Ending results (step :: rest) (.cancelled none)
  | failed {results : List StepResult} {last : StepResult} {rest : List Step}
      {failure : StepFailure} :
      (∀ r ∈ results, r.outcome.isPassing) → last.outcome = .failed failure →
      Ending (results ++ [last]) rest (.failed last.step failure)
  | interrupted {results : List StepResult} {last : StepResult} {rest : List Step} :
      (∀ r ∈ results, r.outcome.isPassing) → last.outcome = .cancelled →
      Ending (results ++ [last]) rest (.cancelled (some last.step))

/-- What can be said of a list of steps at any time. All attempts before the step in flight passed,
and the steps that were not attempted are those at the end. -/
def Told (context : RunContext) (steps : List Step) (notices : List Notice)
    (answers : List (Except RunnerError Output)) : Progress → Prop
  | ready results rest => ∃ attempts, Account context attempts results notices answers ∧
      (∀ r ∈ results, r.outcome.isPassing) ∧ steps = attempts.map (·.step) ++ rest
  | busy results step rest handed _ => ∃ attempts before during, notices = before ++ during ∧
      Account context attempts results before answers ∧ Opened context step handed during ∧
      (∀ r ∈ results, r.outcome.isPassing) ∧ steps = attempts.map (·.step) ++ step :: rest
  | ended results status => ∃ attempts rest, Account context attempts results notices answers ∧
      Ending results rest status ∧ steps = attempts.map (·.step) ++ rest
  | aborted _ => True

theorem told_start (context : RunContext) (steps : List Step) :
    Told context steps [] [] (start steps) :=
  ⟨[], .nil context, by simp, rfl⟩

/-- All that a turn of a step in flight can do: end the step, wait for its command, or panic. -/
inductive BusyTurn (context : RunContext) (results : List StepResult) (step : Step)
    (rest : List Step) (handed : Bool) (startedAt : Instant) (reply : Reply) (scene : Scene) :
    Turn → Option (Except RunnerError Output) → Prop
  | ends (a : Attempt) (scene' : Scene) (now : List Notice) : a.step = step → a.Sound context →
      now.filter Notice.isBracket = [] →
      (if handed then [step.command context] else []) ++ now.filterMap Notice.command? =
        a.commands context →
      BusyTurn context results step rest handed startedAt reply scene
        ⟨proceed results rest a.result, scene', now ++ [.finished a.result]⟩ a.answer
  | waits (now : List Notice) : reply.output = .pending → now.filter Notice.isBracket = [] →
      (if handed then [step.command context] else []) ++ now.filterMap Notice.command? =
        [step.command context] →
      BusyTurn context results step rest handed startedAt reply scene
        ⟨busy results step rest true startedAt, scene.after reply, now⟩ none
  | panics (message : String) (now : List Notice) : reply.output = .panicked message →
      BusyTurn context results step rest handed startedAt reply scene
        ⟨aborted message, scene.after reply, now⟩ none

theorem busyTurn_advance (context : RunContext) (reply : Reply) (scene : Scene)
    (results : List StepResult) (step : Step) (rest : List Step) (handed : Bool)
    (startedAt : Instant) :
    BusyTurn context results step rest handed startedAt reply scene
      ((busy results step rest handed startedAt).advance context reply scene)
      ((busy results step rest handed startedAt).answer? context reply scene) := by
  by_cases hc : scene.cancelled
  · have h : BusyTurn context results step rest handed startedAt reply scene _ _ :=
      .ends ⟨step, step.record .cancelled "" startedAt scene.clock, handed, none⟩ scene [] rfl
        .interrupted rfl (by simp [Attempt.commands])
    simpa [advance, answer?, hc, finish] using h
  cases hs : (if handed then none else step.skipReason? scene.files context) with
  | some reason =>
      obtain ⟨hh, hr⟩ : handed = false ∧ step.skipReason? scene.files context = some reason := by
        cases handed <;> simp_all
      have h : BusyTurn context results step rest handed startedAt reply scene _ _ :=
        .ends ⟨step, step.record (.skipped reason) "" startedAt scene.clock, false, none⟩ scene []
          rfl (.skipped hr) rfl (by simp [Attempt.commands, hh])
      simpa [advance, answer?, hc, hs, hh, hr, finish] using h
  | none =>
      have hskip : (!handed && (step.skipReason? scene.files context).isSome) = false := by
        cases handed <;> simp_all
      let now : List Notice := if handed then [] else [.handed (step.command context) scene.files]
      have hnow : now.filter Notice.isBracket = [] := by
        cases handed <;> simp [now, Notice.isBracket]
      have hcommands : (if handed then [step.command context] else []) ++
          now.filterMap Notice.command? = [step.command context] := by
        cases handed <;> simp [now, Notice.command?]
      cases ho : reply.output with
      | pending =>
          have h : BusyTurn context results step rest handed startedAt reply scene _ _ :=
            .waits now ho hnow hcommands
          simpa [advance, answer?, hc, hs, hskip, ho, now] using h
      | panicked message =>
          have h : BusyTurn context results step rest handed startedAt reply scene _ _ :=
            .panics message now ho
          simpa [advance, answer?, hc, hs, hskip, ho, now] using h
      | ready answer =>
          have h : BusyTurn context results step rest handed startedAt reply scene _ _ :=
            .ends ⟨step, step.record (step.conclude (step.command context) answer).1
                (step.conclude (step.command context) answer).2 startedAt scene.clock,
                true, some answer⟩ (scene.after reply) now rfl .answered hnow hcommands
          simpa [advance, answer?, hc, hs, hskip, ho, finish, Scene.after, now] using h

theorem exists_busyTurn (context : RunContext) (reply : Reply) (scene : Scene)
    (results : List StepResult) (step : Step) (rest : List Step) (handed : Bool)
    (startedAt : Instant) :
    ∃ answer, BusyTurn context results step rest handed startedAt reply scene
      ((busy results step rest handed startedAt).advance context reply scene) answer :=
  ⟨_, busyTurn_advance context reply scene results step rest handed startedAt⟩

/-- A step that is over is followed by the next one if it passed, and ends the list if it did
not. -/
theorem told_proceed {context : RunContext} {steps rest : List Step} {attempts : List Attempt}
    {results : List StepResult} {notices : List Notice}
    {answers : List (Except RunnerError Output)} {a : Attempt}
    (h : Account context (attempts ++ [a]) (results ++ [a.result]) notices answers)
    (hp : ∀ r ∈ results, r.outcome.isPassing)
    (hs : steps = attempts.map (·.step) ++ a.step :: rest) :
    Told context steps notices answers (proceed results rest a.result) := by
  have hs' : steps = (attempts ++ [a]).map (·.step) ++ rest := by simp [hs]
  have hpass (ho : a.result.outcome.isPassing) :
      ∀ r ∈ results ++ [a.result], r.outcome.isPassing := by
    intro r hr
    rcases List.mem_append.mp hr with hr | hr
    · exact hp r hr
    · rw [List.mem_singleton.mp hr]; exact ho
  cases ho : a.result.outcome with
  | succeeded =>
      simp only [proceed, ho]
      exact ⟨_, h, hpass (by simp [ho, StepOutcome.isPassing]), hs'⟩
  | skipped reason =>
      simp only [proceed, ho]
      exact ⟨_, h, hpass (by simp [ho, StepOutcome.isPassing]), hs'⟩
  | failed failure =>
      simp only [proceed, ho]
      exact ⟨_, rest, h, .failed hp ho, hs'⟩
  | cancelled =>
      simp only [proceed, ho]
      exact ⟨_, rest, h, .interrupted hp ho, hs'⟩

/-- One turn keeps what can be said of a list of steps. -/
theorem told_advance {context : RunContext} {steps : List Step} {notices : List Notice}
    {answers : List (Except RunnerError Output)} {progress : Progress} (reply : Reply)
    (scene : Scene) (h : Told context steps notices answers progress) :
    Told context steps (notices ++ (progress.advance context reply scene).notices)
      (answers ++ (progress.answer? context reply scene).toList)
      (progress.advance context reply scene).progress := by
  cases progress with
  | ready results rest =>
      obtain ⟨attempts, ha, hp, hs⟩ := h
      cases rest with
      | nil =>
          simp only [advance, answer?, List.append_nil, Option.toList_none]
          exact ⟨attempts, [], ha, .completed hp, hs⟩
      | cons step rest =>
          by_cases hc : scene.cancelled
          · simp only [advance, answer?, hc, if_true, List.append_nil, Option.toList_none]
            exact ⟨attempts, step :: rest, ha, .between hp, hs⟩
          · simp only [advance, answer?, hc, Option.toList_none, List.append_nil]
            exact ⟨attempts, notices, [.started step], rfl, ha,
              ⟨by simp [Notice.command?], by simp [Notice.isBracket]⟩, hp, hs⟩
  | busy results step rest handed startedAt =>
      obtain ⟨attempts, before, during, rfl, ha, ho, hp, hs⟩ := h
      generalize hturn :
        (busy results step rest handed startedAt).advance context reply scene = turn
      generalize hanswer :
        (busy results step rest handed startedAt).answer? context reply scene = answer
      have hbusy := busyTurn_advance context reply scene results step rest handed startedAt
      rw [hturn, hanswer] at hbusy
      cases hbusy with
      | ends a scene' now hstep hsound hbrackets hcommands =>
          subst hstep
          have hopened : Opened context a.step a.handed (during ++ now) :=
            ⟨by simpa [ho.commands, Attempt.commands] using hcommands,
              by simp [ho.brackets, hbrackets]⟩
          have hclosed := ha.close hsound hopened
          simp only [List.append_assoc] at hclosed ⊢
          exact told_proceed hclosed hp hs
      | waits now _ hbrackets hcommands =>
          refine ⟨attempts, before, during ++ now, by simp, by simpa using ha, ⟨?_, ?_⟩, hp, hs⟩
          · simpa [ho.commands] using hcommands
          · simp [ho.brackets, hbrackets]
      | panics message now _ => trivial
  | ended results status => simpa [advance, answer?] using h
  | aborted message => trivial

end Progress

end BuildMatrix
