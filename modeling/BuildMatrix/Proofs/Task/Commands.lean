import BuildMatrix.Proofs.Task.Setup

/-!
# Where the commands of a run come from

A turn hands over the command of the step in flight only. The workspace in which it is carried out
and the interpreter are those of the run: a turn keeps them, unless it is the one in which they are
staged or provisioned.
-/

namespace BuildMatrix

/-- What a run has at a stage after its interpreter was provisioned. -/
def Stage.setup? : Stage → Option Setup
  | .provisioned setup | .lookingUp setup _ _ | .restoring setup _ _ | .stepping setup _ _
  | .packing setup _ _ _ | .saving setup _ _ _ _ => some setup
  | _ => none

namespace Progress

/-- A command is handed over when its step is in flight, and it is the command of the step. -/
theorem handed_advance {context : RunContext} {reply : Reply} {scene : Scene} {progress : Progress}
    {command : Command} {files : FileSystem}
    (h : .handed command files ∈ (progress.advance context reply scene).notices) :
    ∃ results step rest startedAt, progress = .busy results step rest false startedAt ∧
      command = step.command context ∧ files = scene.files := by
  cases progress with
  | ready results steps =>
    cases steps with
    | nil => cases h
    | cons step rest =>
      simp only [advance] at h
      split at h
      · cases h
      · simp at h
  | busy results step rest handed startedAt =>
    simp only [advance] at h
    split at h
    · simp [finish] at h
    split at h
    · simp [finish] at h
    cases handed with
    | true => split at h <;> simp [finish] at h
    | false =>
      have hnow : command = step.command context ∧ files = scene.files := by
        split at h <;> simpa [finish] using h
      exact ⟨results, step, rest, startedAt, rfl, hnow⟩
  | ended results status => cases h
  | aborted message => cases h

end Progress

namespace Task

variable {job : Job} {reply : Reply} {shared : Shared} {task : Task}

theorem setup?_afterSteps {setup setup' : Setup} {cache : RestoredCache} {progress : Progress}
    (h : (afterSteps setup cache progress).setup? = some setup') : setup = setup' := by
  unfold afterSteps at h
  split at h
  · split at h
    · cases h
    · cases h
    · exact Option.some.inj h
  · cases h
  · cases h
  · exact Option.some.inj h

theorem inSetup_afterSteps (setup : Setup) (cache : RestoredCache) (progress : Progress) :
    (afterSteps setup cache progress).inSetup = false := by
  unfold afterSteps
  split
  · split <;> rfl
  all_goals rfl

/-- A run keeps what it has, from the turn in which its interpreter is provisioned. -/
theorem setup_origin {setup : Setup}
    (h : (task.turn job reply shared).stage.setup? = some setup) :
    task.stage.setup? = some setup ∨ ∃ version asked,
      task.stage = .provisioning version setup.workspace asked ∧
        reply.toolchain = .ready (.ok setup.toolchain) := by
  have ht := takes_turn job reply shared task
  generalize task.turn job reply shared = turn at ht h
  generalize task.stage = stage at ht ⊢
  cases ht with
  | provisioned version workspace asked toolchain _ hready =>
    obtain rfl := Option.some.inj h
    exact .inr ⟨version, asked, rfl, hready⟩
  | stepped setup' cache progress turn _ _ => exact .inl (congrArg some (setup?_afterSteps h))
  | stepPanics | saved | notSaved | notPacked => cases h
  | _ => exact .inl h

/-- A run keeps its workspace while it is provisioned, from the turn in which it is staged. -/
theorem provisioning_origin {version : String} {workspace : Workspace} {asked : Bool}
    (h : (task.turn job reply shared).stage = .provisioning version workspace asked) :
    (∃ asked, task.stage = .provisioning version workspace asked) ∨
      ∃ files, task.stage = .staging version ∧
        Workspace.stage shared.scene.files job.temporary job.directory task.plan =
          (files, .ok workspace) := by
  have ht := takes_turn job reply shared task
  generalize task.turn job reply shared = turn at ht h
  generalize task.stage = stage at ht ⊢
  cases ht with
  | staged version files workspace hstage =>
    cases h
    exact .inr ⟨files, rfl, hstage⟩
  | provisioningWaits version workspace asked _ _ =>
    cases h
    exact .inl ⟨asked, rfl⟩
  | stepped setup cache progress turn _ _ =>
    have hlater := inSetup_afterSteps setup cache turn.progress
    exact absurd (hlater.symm.trans (congrArg Stage.inSetup h)) Bool.false_ne_true
  | ended stage hover =>
    obtain ⟨run, rfl⟩ | ⟨message, rfl⟩ := hover
    · cases h
    · cases h
  | _ => cases h

theorem version_turn {version : String}
    (hbefore : ∀ version, task.stage = .staging version →
      job.workflow.versionFor? task.plan = some version)
    (h : (task.turn job reply shared).stage = .staging version) :
    job.workflow.versionFor? task.plan = some version := by
  have ht := takes_turn job reply shared task
  generalize task.turn job reply shared = turn at ht h
  generalize task.stage = stage at ht hbefore
  cases ht with
  | begun version' _ hversion =>
    cases h
    exact hversion
  | stepped setup cache progress turn _ _ =>
    have hlater := inSetup_afterSteps setup cache turn.progress
    exact absurd (hlater.symm.trans (congrArg Stage.inSetup h)) Bool.false_ne_true
  | ended stage hover => exact hbefore version h
  | _ => cases h

theorem handed_turn {command : Command} {files : FileSystem}
    (h : .handed command files ∈ (task.turn job reply shared).entries) :
    ∃ setup cache results step rest startedAt,
      task.stage = .stepping setup cache (.busy results step rest false startedAt) ∧
        command = step.command (context job task.plan setup) ∧ files = shared.scene.files := by
  have hnotice {plan : Plan} {notices : List Notice}
      (h : .handed command files ∈ notices.map (entryOf plan)) :
      .handed command files ∈ notices := by
    obtain ⟨notice, hmem, he⟩ := List.mem_map.mp h
    cases notice with
    | handed command' files' =>
      cases he
      exact hmem
    | started step => cases he
    | finished result => cases he
  have ht := takes_turn job reply shared task
  generalize task.turn job reply shared = turn at ht h
  generalize task.stage = stage at ht ⊢
  cases ht with
  | stepped setup cache progress turn hturn _ =>
    subst hturn
    obtain ⟨results, step, rest, startedAt, rfl, hcommand, hfiles⟩ :=
      Progress.handed_advance (hnotice h)
    exact ⟨setup, cache, results, step, rest, startedAt, rfl, hcommand, hfiles⟩
  | stepPanics setup cache progress turn message hturn _ =>
    subst hturn
    obtain ⟨results, step, rest, startedAt, rfl, hcommand, hfiles⟩ :=
      Progress.handed_advance (hnotice h)
    exact ⟨setup, cache, results, step, rest, startedAt, rfl, hcommand, hfiles⟩
  | provisioningWaits | provisioningPanics | provisioningFailed | provisioned =>
    simp [request] at h
  | _ => simp at h

end Task

end BuildMatrix
