import BuildMatrix.Proofs.Progress.Account
import Mathlib.Data.List.Forall2

/-!
# How a list of steps ends

However the host answers, whenever time passes and whenever the cancellation is requested, the
results of a list of steps that has ended belong to its first steps in order, and the status, the
commands that were handed over and the notices can be read off them. A list ends if its commands
are answered, and it ends in one turn once the cancellation is requested.
-/

namespace BuildMatrix

def StepFailure.exitCode? : StepFailure → Option Int32
  | commandFailed _ code | versionPinMismatch _ _ code | testExecutionFailure code
  | installVerificationFailure code => code
  | _ => none

namespace Step

theorem failure_exitCode? (step : Step) (command : Command) (output : Output) :
    (step.failure command output).exitCode? = output.exitCode := by
  unfold failure
  split <;> rfl

theorem conclude_succeeded_iff (step : Step) (command : Command)
    (answer : Except RunnerError Output) :
    (step.conclude command answer).1 = .succeeded ↔
      ∃ output, answer = .ok output ∧ output.exitCode = some 0 := by
  cases answer with
  | error e => simp [conclude]
  | ok output =>
      by_cases h : output.exitCode = some 0 <;> simp [conclude, Output.succeeded, h]

theorem conclude_failed_exitCode? {step : Step} {command : Command}
    {answer : Except RunnerError Output} {failure : StepFailure}
    (h : (step.conclude command answer).1 = .failed failure) : failure.exitCode? ≠ some 0 := by
  cases answer with
  | error e =>
      simp only [conclude, StepOutcome.failed.injEq] at h
      subst h
      cases e <;> simp [StepFailure.ofRunnerError, StepFailure.exitCode?]
  | ok output =>
      by_cases hz : output.exitCode = some 0
      · simp [conclude, Output.succeeded, hz] at h
      · simp only [conclude, Output.succeeded, beq_eq_false_iff_ne.mpr hz, Bool.false_eq_true,
          if_false, StepOutcome.failed.injEq] at h
        rw [← h, failure_exitCode?]
        exact hz

end Step

namespace Progress

/-- Whether a step ended with an answer to its command. -/
def ranCommand (p : Step × StepResult) : Bool :=
  match p.2.outcome with
  | .succeeded | .failed _ => true
  | .skipped _ | .cancelled => false

def ranSteps (steps : List Step) (results : List StepResult) : List Step :=
  ((steps.zip results).filter ranCommand).map (·.1)

/-- How a step whose command was answered ended. -/
structure Concluded (context : RunContext) (p : Step × StepResult)
    (answer : Except RunnerError Output) : Prop where
  outcome : (p.2.outcome, p.2.output) = p.1.conclude (p.1.command context) answer
  succeeded_iff : p.2.outcome = .succeeded ↔
    ∃ output, answer = .ok output ∧ output.exitCode = some 0
  exitCode : ∀ failure, p.2.outcome = .failed failure → failure.exitCode? ≠ some 0

/-- The last attempted step, and how it ended. -/
def EndsAt (steps : List Step) (results : List StepResult) (step : Step) (outcome : StepOutcome) :
    Prop :=
  ∃ r, (steps.zip results).getLast? = some (step, r) ∧ r.outcome = outcome

/-- The status of a list of steps that has ended is told by its results. -/
structure Tells (steps : List Step) (results : List StepResult) (status : RunStatus) : Prop where
  earlier : ∀ r ∈ results.dropLast, r.outcome.isPassing
  completed_iff : status = .completed ↔
    results.length = steps.length ∧ ∀ r ∈ results, r.outcome.isPassing
  failed_iff : ∀ name failure, status = .failed name failure ↔
    ∃ s, EndsAt steps results s (.failed failure) ∧ name = s.name
  interrupted_iff : ∀ name, status = .cancelled (some name) ↔
    ∃ s, EndsAt steps results s .cancelled ∧ name = s.name
  between_iff : status = .cancelled none ↔
    results.length < steps.length ∧ ∀ r ∈ results, r.outcome.isPassing

/-- What happened to a list of steps that has ended. The pairs of steps and results are those of the
attempted steps. -/
structure Faithful (context : RunContext) (steps : List Step) (notices : List Notice)
    (answers : List (Except RunnerError Output)) (results : List StepResult) (status : RunStatus) :
    Prop where
  length_le : results.length ≤ steps.length
  attempted : results.map (fun r => (r.step, r.phase)) =
    (steps.take results.length).map fun s => (s.name, s.phase)
  tells : Tells steps results status
  /-- Only of a step that was interrupted the command may have been handed over or not. -/
  commands : ∃ interrupted : List Step,
    notices.filterMap Notice.command? =
      (ranSteps steps results ++ interrupted).map (·.command context) ∧
    (interrupted = [] ∨ ∃ s, EndsAt steps results s .cancelled ∧ interrupted = [s])
  answers : List.Forall₂ (Concluded context) ((steps.zip results).filter ranCommand) answers
  skipped : ∀ p ∈ steps.zip results, ∀ reason, p.2.outcome = .skipped reason →
    ∃ files, p.1.skipReason? files context = some reason
  brackets : notices.filter Notice.isBracket =
    (steps.zip results).flatMap fun p => [.started p.1, .finished p.2]

end Progress

namespace Attempt

def pair (a : Attempt) : Step × StepResult := (a.step, a.result)

section
variable {context : RunContext} {a : Attempt}

theorem Sound.concluded (h : a.Sound context) {answer : Except RunnerError Output}
    (ha : a.answer = some answer) : Progress.Concluded context a.pair answer := by
  cases h with
  | skipped _ => simp at ha
  | @answered step answer' startedAt finishedAt =>
      simp only [Option.some.injEq] at ha
      subst ha
      exact ⟨rfl, step.conclude_succeeded_iff _ _, fun _ => Step.conclude_failed_exitCode?⟩
  | interrupted => simp at ha

theorem Sound.ranCommand (h : a.Sound context) :
    Progress.ranCommand a.pair = a.answer.isSome := by
  cases h with
  | skipped _ => rfl
  | @answered step answer startedAt finishedAt =>
      cases answer with
      | error e => rfl
      | ok output =>
          by_cases ho : output.succeeded <;>
            simp [Progress.ranCommand, pair, Step.record, Step.conclude, ho]
  | interrupted => rfl

theorem Sound.handed (h : a.Sound context) (hc : a.result.outcome ≠ .cancelled) :
    a.handed = Progress.ranCommand a.pair := by
  rw [h.ranCommand]
  cases h with
  | skipped _ => rfl
  | answered => rfl
  | interrupted => exact absurd rfl hc

theorem Sound.skipReason (h : a.Sound context) {reason : SkipReason}
    (hr : a.result.outcome = .skipped reason) :
    ∃ files, a.step.skipReason? files context = some reason := by
  cases h with
  | @skipped step reason' files startedAt finishedAt hf =>
      simp only [Step.record, StepOutcome.skipped.injEq] at hr
      exact ⟨files, hr ▸ hf⟩
  | @answered step answer startedAt finishedAt =>
      cases answer with
      | error e => simp [Step.record, Step.conclude] at hr
      | ok output =>
          by_cases ho : output.succeeded <;> simp [Step.record, Step.conclude, ho] at hr
  | interrupted => simp [Step.record] at hr

end

end Attempt

namespace Progress

section
variable {context : RunContext} {steps rest : List Step} {attempts : List Attempt}
  {results : List StepResult} {notices : List Notice} {answers : List (Except RunnerError Output)}

theorem Account.zip (h : Account context attempts results notices answers)
    (hs : steps = attempts.map (·.step) ++ rest) :
    steps.zip results = attempts.map Attempt.pair := by
  rw [hs, h.results]
  clear hs h
  induction attempts with
  | nil => simp
  | cons a attempts ih => simp [ih, Attempt.pair]

/-- The commands of steps that were not interrupted are those of the steps that ran them. -/
theorem commands_of_sound (h : ∀ a ∈ attempts, a.Sound context)
    (hc : ∀ a ∈ attempts, a.result.outcome ≠ .cancelled) :
    attempts.flatMap (Attempt.commands context) =
      (((attempts.map Attempt.pair).filter ranCommand).map (·.1)).map (·.command context) := by
  induction attempts with
  | nil => rfl
  | cons a attempts ih =>
      have hrest := ih (fun b hb => h b (by simp [hb])) (fun b hb => hc b (by simp [hb]))
      have ha := (h a (by simp)).handed (hc a (by simp))
      cases hran : ranCommand a.pair <;>
        simp_all [Attempt.commands, Attempt.pair]

theorem concluded_of_sound (h : ∀ a ∈ attempts, a.Sound context) :
    List.Forall₂ (Concluded context) ((attempts.map Attempt.pair).filter ranCommand)
      (attempts.filterMap (·.answer)) := by
  induction attempts with
  | nil => exact .nil
  | cons a attempts ih =>
      have hrest := ih (fun b hb => h b (by simp [hb]))
      have hran := (h a (by simp)).ranCommand
      cases ha : a.answer with
      | none => simpa [ha, hran] using hrest
      | some answer =>
          have hc := (h a (by simp)).concluded ha
          simpa [ha, hran] using And.intro hc hrest

theorem Account.map_zip (h : Account context attempts results notices answers)
    (hs : steps = attempts.map (·.step) ++ rest) :
    results.map (fun r => (r.step, r.phase)) =
      (steps.take results.length).map fun s => (s.name, s.phase) := by
  have htake : steps.take results.length = attempts.map (·.step) := by simp [hs, h.results]
  rw [htake, h.results, List.map_map, List.map_map]
  exact List.map_congr_left fun a ha =>
    Prod.ext (h.sound a ha).result_step (h.sound a ha).result_phase

/-- The last attempt of an account is the one at which the list ended. -/
theorem Account.endsAt_iff (h : Account context attempts results notices answers)
    (hs : steps = attempts.map (·.step) ++ rest) {earlier : List Attempt} {a : Attempt}
    (hl : attempts = earlier ++ [a]) (step : Step) (outcome : StepOutcome) :
    EndsAt steps results step outcome ↔ step = a.step ∧ outcome = a.result.outcome := by
  rw [EndsAt, h.zip hs, hl]
  simp only [List.map_append, List.map_cons, List.map_nil, List.getLast?_concat, Attempt.pair,
    Option.some.injEq, Prod.mk.injEq]
  constructor
  · rintro ⟨r, ⟨rfl, rfl⟩, rfl⟩
    exact ⟨rfl, rfl⟩
  · rintro ⟨rfl, rfl⟩
    exact ⟨_, ⟨rfl, rfl⟩, rfl⟩

theorem EndsAt.isPassing {step : Step} {outcome : StepOutcome}
    (h : EndsAt steps results step outcome) (hp : ∀ r ∈ results, r.outcome.isPassing) :
    outcome.isPassing := by
  obtain ⟨r, hr, rfl⟩ := h
  exact hp r (List.of_mem_zip (List.mem_of_getLast? hr)).2

theorem tells_of_passing {status : RunStatus} (hp : ∀ r ∈ results, r.outcome.isPassing)
    (hc : status = .completed ↔ results.length = steps.length)
    (hb : status = .cancelled none ↔ results.length < steps.length)
    (hn : status = .completed ∨ status = .cancelled none) : Tells steps results status where
  earlier r hr := hp r (List.dropLast_subset _ hr)
  completed_iff := by rw [hc, and_iff_left hp]
  failed_iff name failure := by
    constructor
    · rintro rfl
      simp at hn
    · rintro ⟨s, hs, -⟩
      exact absurd (hs.isPassing hp) (by simp [StepOutcome.isPassing])
  interrupted_iff name := by
    constructor
    · rintro rfl
      simp at hn
    · rintro ⟨s, hs, -⟩
      exact absurd (hs.isPassing hp) (by simp [StepOutcome.isPassing])
  between_iff := by rw [hb, and_iff_left hp]

theorem Account.tells_of_last (h : Account context attempts results notices answers)
    (hs : steps = attempts.map (·.step) ++ rest) {earlier : List Attempt} {a : Attempt}
    (hl : attempts = earlier ++ [a]) (hp : ∀ b ∈ earlier, b.result.outcome.isPassing)
    {status : RunStatus}
    (ho : (∃ failure, a.result.outcome = .failed failure ∧
        status = .failed a.step.name failure) ∨
      a.result.outcome = .cancelled ∧ status = .cancelled (some a.step.name)) :
    Tells steps results status := by
  have hmem : a.result ∈ results := by simp [h.results, hl]
  have hearlier : ∀ r ∈ results.dropLast, r.outcome.isPassing := by
    rw [h.results, hl]
    intro r hr
    obtain ⟨b, hb, rfl⟩ : ∃ b ∈ earlier, b.result = r := by simpa using hr
    exact hp b hb
  have hnot : ¬∀ r ∈ results, r.outcome.isPassing := by
    intro hall
    have hpass := hall _ hmem
    rcases ho with ⟨failure, ho, -⟩ | ⟨ho, -⟩ <;> simp [ho, StepOutcome.isPassing] at hpass
  rcases ho with ⟨failure, ho, rfl⟩ | ⟨ho, rfl⟩
  · refine ⟨hearlier, by simp [hnot], fun name failure' => ?_, fun name => ?_, by simp [hnot]⟩
    · simp only [h.endsAt_iff hs hl, ho, StepOutcome.failed.injEq, RunStatus.failed.injEq]
      constructor
      · rintro ⟨rfl, rfl⟩
        exact ⟨a.step, ⟨rfl, rfl⟩, rfl⟩
      · rintro ⟨s, ⟨rfl, rfl⟩, rfl⟩
        exact ⟨rfl, rfl⟩
    · simp [h.endsAt_iff hs hl, ho]
  · refine ⟨hearlier, by simp [hnot], fun name failure => ?_, fun name => ?_, by simp [hnot]⟩
    · simp [h.endsAt_iff hs hl, ho]
    · simp [h.endsAt_iff hs hl, ho, eq_comm]

/-- A result before the last one is that of an attempt before the last one. -/
theorem Account.last (h : Account context attempts (results ++ [r]) notices answers) :
    ∃ earlier a, attempts = earlier ++ [a] ∧ a.result = r ∧ results = earlier.map (·.result) := by
  rcases List.eq_nil_or_concat attempts with rfl | ⟨earlier, a, rfl⟩
  · simpa using h.results
  · have hr := h.results
    simp only [List.concat_eq_append, List.map_append, List.map_cons, List.map_nil] at hr
    obtain ⟨hr, hl⟩ := List.append_inj' hr rfl
    exact ⟨earlier, a, by simp, by simpa using hl.symm, hr⟩

theorem Account.tells (h : Account context attempts results notices answers)
    (hs : steps = attempts.map (·.step) ++ rest) {status : RunStatus}
    (he : Ending results rest status) : Tells steps results status := by
  have hlength : results.length = attempts.length := by simp [h.results]
  cases he with
  | completed hp =>
      exact tells_of_passing hp (by simp [hs, hlength]) (by simp [hs, hlength]) (.inl rfl)
  | between hp =>
      exact tells_of_passing hp (by simp [hs, hlength]) (by simp [hs, hlength]) (.inr rfl)
  | @failed results last rest failure hp hf =>
      obtain ⟨earlier, a, hl, rfl, rfl⟩ := h.last
      have hname : a.result.step = a.step.name := (h.sound a (by simp [hl])).result_step
      exact h.tells_of_last hs hl (by simpa using hp) (.inl ⟨failure, hf, by rw [hname]⟩)
  | interrupted hp hc =>
      obtain ⟨earlier, a, hl, rfl, rfl⟩ := h.last
      have hname : a.result.step = a.step.name := (h.sound a (by simp [hl])).result_step
      exact h.tells_of_last hs hl (by simpa using hp) (.inr ⟨hc, by rw [hname]⟩)

theorem ne_cancelled_of_isPassing {r : StepResult} (h : r.outcome.isPassing) :
    r.outcome ≠ .cancelled := by
  intro hc
  simp [hc, StepOutcome.isPassing] at h

theorem Account.commands_eq (h : Account context attempts results notices answers)
    (hs : steps = attempts.map (·.step) ++ rest)
    (hc : ∀ r ∈ results, r.outcome ≠ .cancelled) :
    notices.filterMap Notice.command? =
      (ranSteps steps results).map (·.command context) := by
  rw [h.commands, ranSteps, h.zip hs]
  refine commands_of_sound h.sound fun a ha => hc _ ?_
  rw [h.results]
  exact List.mem_map_of_mem ha

theorem Account.commands_of_last (h : Account context attempts results notices answers)
    (hs : steps = attempts.map (·.step) ++ rest) {earlier : List Attempt} {a : Attempt}
    (hl : attempts = earlier ++ [a]) (hp : ∀ b ∈ earlier, b.result.outcome.isPassing)
    (ha : a.result.outcome = .cancelled) :
    notices.filterMap Notice.command? =
      (ranSteps steps results ++ if a.handed then [a.step] else []).map (·.command context) := by
  have hsound : ∀ b ∈ earlier, b.Sound context := fun b hb => h.sound b (by simp [hl, hb])
  have hran : ranCommand a.pair = false := by simp [ranCommand, Attempt.pair, ha]
  rw [h.commands, ranSteps, h.zip hs, hl, List.flatMap_append,
    commands_of_sound hsound fun b hb => ne_cancelled_of_isPassing (hp b hb)]
  cases hh : a.handed <;> simp [Attempt.commands, hran, hh]

theorem Account.faithful (h : Account context attempts results notices answers)
    (hs : steps = attempts.map (·.step) ++ rest) {status : RunStatus}
    (he : Ending results rest status) : Faithful context steps notices answers results status where
  length_le := by simp [hs, h.results]
  attempted := h.map_zip hs
  tells := h.tells hs he
  commands := by
    cases he with
    | completed hp =>
        refine ⟨[], ?_, .inl rfl⟩
        simpa using h.commands_eq hs fun r hr => ne_cancelled_of_isPassing (hp r hr)
    | between hp =>
        refine ⟨[], ?_, .inl rfl⟩
        simpa using h.commands_eq hs fun r hr => ne_cancelled_of_isPassing (hp r hr)
    | failed hp hf =>
        refine ⟨[], ?_, .inl rfl⟩
        rw [List.append_nil]
        refine h.commands_eq hs fun r hr => ?_
        rcases List.mem_append.mp hr with hr | hr
        · exact ne_cancelled_of_isPassing (hp r hr)
        · rw [List.mem_singleton.mp hr, hf]; simp
    | interrupted hp hc =>
        obtain ⟨earlier, a, hl, rfl, rfl⟩ := h.last
        refine ⟨_, h.commands_of_last hs hl (by simpa using hp) hc, ?_⟩
        cases a.handed
        · exact .inl rfl
        · exact .inr ⟨a.step, (h.endsAt_iff hs hl _ _).mpr ⟨rfl, hc.symm⟩, rfl⟩
  answers := by
    rw [h.zip hs, h.answers]
    exact concluded_of_sound h.sound
  skipped := by
    rw [h.zip hs]
    intro p hp reason hr
    obtain ⟨a, ha, rfl⟩ := List.mem_map.mp hp
    exact (h.sound a ha).skipReason hr
  brackets := by
    rw [h.brackets, h.zip hs, List.flatMap_map]
    rfl

end

end Progress

end BuildMatrix
