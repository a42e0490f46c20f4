import BuildMatrix.CommandLine.Commands
import BuildMatrix.Proofs.Execution.Schedule

/-!
# Calls that run a workflow

A call that can load its workflow, finds the package root and opens its store plays an execution on
its host. On every host that answers or cancels, that execution is a run which ends with a report,
and the exit code of the call tells the status of that report.
-/

namespace BuildMatrix

/-- An interrupt cancels, and any other process has a result. -/
theorem LocalHost.answers_host (setting : HostSetting) (provisioner : Provisioner) :
    (host setting provisioner).Answers := by
  constructor
  · intro files version
    simp only [host, replyAfter]
    split
    · exact .inl rfl
    · exact .inr rfl
  · intro files command
    simp only [host, replyAfter]
    split
    · exact .inl rfl
    · exact .inr rfl

namespace CommandLine

/-- The execution that a call starts. -/
def started (situation : Situation) (session : Session) (opened : OpenStore) (workflow : Workflow)
    (directory event : String) : Execution :=
  .start ⟨workflow, directory, situation.temporary⟩ event situation.id
    ⟨⟨session.files, false, situation.now⟩, opened.store⟩

/-- The exit code of a call tells the status of its report. -/
structure Outcome.Tells (outcome : Outcome) (report : Report) : Prop where
  completed : report.status = .completed → outcome.exitCode = 0
  cancelled : report.status = .cancelled → outcome.exitCode = 130
  failed : report.status = .failed → outcome.exitCode = 1
  error : outcome.error = none

theorem runWorkflow_tells {host : Host} (hanswers : host.Answers) {situation : Situation}
    {session session' : Session} {file : Option String} {workdir event directory : String}
    {noCacheStore : Bool} (json : Bool) {workflow : Workflow} {opened : OpenStore}
    (hload : loadWorkflow situation session.files file = .ok workflow)
    (hdirectory : session.files.canonical workdir = .ok directory)
    (hopen : openStore situation noCacheStore session = (session', .ok opened)) :
    ∃ moves report,
      (started situation session' opened workflow directory event).play host =
        (started situation session' opened workflow directory event).run moves ∧
      ((started situation session' opened workflow directory event).play host).report? =
        some report ∧
      (runWorkflow host situation session file workdir event noCacheStore json).2.Tells report := by
  obtain ⟨moves, report, hplay, hreport⟩ := Execution.play_spec hanswers
    ⟨workflow, directory, situation.temporary⟩ event situation.id
    ⟨⟨session'.files, false, situation.now⟩, opened.store⟩
  rw [← hplay] at hreport
  refine ⟨moves, report, hplay, hreport, ?_⟩
  have houtcome : ∃ lines,
      (runWorkflow host situation session file workdir event noCacheStore json).2 =
        ⟨exitCodeFor report.status, lines, none⟩ := by
    simp only [runWorkflow, hload, hdirectory, hopen, hreport]
    exact ⟨_, rfl⟩
  obtain ⟨lines, heq⟩ := houtcome
  rw [heq]
  exact ⟨fun h => by rw [h]; rfl, fun h => by rw [h]; rfl, fun h => by rw [h]; rfl, rfl⟩

/--
Every report has one run for each plan, whatever the order of the turns and joins and whichever
tasks panic; there is a report once each task had its turns; and a call that plays an execution on
its host ends with the report of that execution, which is such a run.
-/
theorem reports_every_plan :
    (∀ (job : Job) (event : String) (id : Ident) (shared : Shared) (moves : List Move),
      (∀ report, ((Execution.start job event id shared).run moves).report? = some report →
        Execution.Complete job event id shared moves report) ∧
      ((Execution.start job event id shared).Settled moves →
        (∀ position < (Execution.plansFor job.workflow event).length,
          Execution.turnBound job.workflow ≤ moves.countP (Move.isTurnOf position)) →
        ∃ report, ((Execution.start job event id shared).run (moves ++ List.replicate
          ((Execution.plansFor job.workflow event).length + 1) .join)).report? = some report)) ∧
    ∀ (host : Host) (situation : Situation) (session session' : Session) (file : Option String)
      (workdir event directory : String) (noCacheStore json : Bool) (workflow : Workflow)
      (opened : OpenStore), host.Answers →
      loadWorkflow situation session.files file = .ok workflow →
      session.files.canonical workdir = .ok directory →
      openStore situation noCacheStore session = (session', .ok opened) →
      ∃ moves report,
        (started situation session' opened workflow directory event).play host =
          (started situation session' opened workflow directory event).run moves ∧
        ((started situation session' opened workflow directory event).play host).report? =
          some report ∧
        (runWorkflow host situation session file workdir event noCacheStore
          json).2.Tells report := by
  refine ⟨fun job event id shared moves => ⟨fun report => ?_, fun hsettled hcount => ?_⟩, ?_⟩
  · exact Execution.complete_of_report
  · exact Option.isSome_iff_exists.mp (Execution.report?_of_settled hsettled hcount)
  · intro host situation session session' file workdir event directory noCacheStore json workflow
      opened hanswers hload hdirectory hopen
    exact runWorkflow_tells hanswers json hload hdirectory hopen

/-- An interpreter is found, and each command panics. -/
def panickingHost : Host :=
  ⟨fun _ _ => Execution.panickingReply, fun _ _ => Execution.panickingReply⟩

def bareSituation : Situation := ⟨.ofList [("HOME", "/home")], .epoch, .zero⟩

def bareSession : Session := ⟨Execution.freshShared.scene.files, .empty⟩

/-- The turns of two tasks on a host on which the commands of the second panic. -/
def panickingTurns : List Move :=
  (List.replicate 19 [.turn 0 Execution.goodReply, .turn 1 Execution.panickingReply]).flatten

theorem settled_panickingTurns (e : Execution) : e.Settled panickingTurns := by
  refine Execution.settled_of_given fun position reply hmem => ?_
  simp only [panickingTurns, List.mem_flatten, List.mem_replicate] at hmem
  obtain ⟨turns, ⟨-, rfl⟩, hturn⟩ := hmem
  simp only [List.mem_cons, Move.turn.injEq, List.not_mem_nil, or_false] at hturn
  rcases hturn with ⟨-, rfl⟩ | ⟨-, rfl⟩ <;> exact ⟨rfl, rfl⟩

/-- One of two runs panics; and a call on a host that panics ends with a report. -/
theorem reports_every_plan_panic :
    (∃ report, ((Execution.start Execution.twoRuns "push" .zero Execution.freshShared).run
      (panickingTurns ++ List.replicate 3 .join)).report? = some report ∧
      Execution.Complete Execution.twoRuns "push" .zero Execution.freshShared
        (panickingTurns ++ List.replicate 3 .join) report) ∧
    ((Execution.start Execution.twoRuns "push" .zero Execution.freshShared).run
      panickingTurns).tasks.map (·.panicked) = [false, true] ∧
    ∃ moves report,
      (started bareSituation bareSession ⟨.inMemory, none⟩ Execution.builtinWorkflow "/package"
        "push").play panickingHost =
        (started bareSituation bareSession ⟨.inMemory, none⟩ Execution.builtinWorkflow "/package"
          "push").run moves ∧
      ((started bareSituation bareSession ⟨.inMemory, none⟩ Execution.builtinWorkflow "/package"
        "push").play panickingHost).report? = some report ∧
      (runWorkflow panickingHost bareSituation bareSession none "/package" "push" true
        true).2.Tells report := by
  have hcount : ∀ position < (Execution.plansFor Execution.twoRuns.workflow "push").length,
      Execution.turnBound Execution.twoRuns.workflow ≤
        panickingTurns.countP (Move.isTurnOf position) := by decide +kernel
  obtain ⟨report, hreport⟩ := (reports_every_plan.1 Execution.twoRuns "push" .zero
    Execution.freshShared panickingTurns).2 (settled_panickingTurns _) hcount
  have hload : loadWorkflow bareSituation bareSession.files none =
      .ok Execution.builtinWorkflow := by
    decide +kernel
  have hdirectory : bareSession.files.canonical "/package" = .ok "/package" := by decide +kernel
  refine ⟨⟨report, hreport, (reports_every_plan.1 _ _ _ _ _).1 report hreport⟩,
    by decide +kernel, ?_⟩
  exact reports_every_plan.2 panickingHost bareSituation bareSession bareSession none "/package"
    "push" "/package" true true _ _ ⟨fun _ _ => .inr rfl, fun _ _ => .inr rfl⟩ hload hdirectory rfl

end CommandLine

end BuildMatrix
