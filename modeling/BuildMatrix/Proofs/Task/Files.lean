import BuildMatrix.Proofs.Task.Turn

/-!
# What a turn does to the files

A turn changes the files in one of a few ways: the host does something for a run that waits for it,
a workspace is staged or removed, or a cache is restored. What is known of each of these operations
is put together here for all stages.
-/

namespace BuildMatrix

def Stage.workspace? : Stage → Option Workspace
  | .provisioning _ workspace _ => some workspace
  | .provisioned setup | .lookingUp setup _ _ | .restoring setup _ _ | .stepping setup _ _
  | .packing setup _ _ _ | .saving setup _ _ _ _ => some setup.workspace
  | .closing workspace _ _ _ => workspace
  | _ => none

namespace Progress

theorem files_advance (context : RunContext) (reply : Reply) (scene : Scene) (progress : Progress) :
    (progress.advance context reply scene).scene.files = scene.files ∨
      (progress.advance context reply scene).scene.files = reply.files scene.files := by
  cases progress with
  | ready results steps =>
      cases steps with
      | nil => exact .inl rfl
      | cons step rest =>
          simp only [advance]
          split <;> exact .inl rfl
  | busy results step rest handed startedAt =>
      simp only [advance]
      split
      · exact .inl rfl
      split
      · exact .inl rfl
      · split <;> exact .inr rfl
  | ended results status => exact .inl rfl
  | aborted message => exact .inl rfl

end Progress

namespace Task

theorem workspace?_afterSteps (setup : Setup) (cache : RestoredCache) (progress : Progress) :
    (afterSteps setup cache progress).workspace? = none ∨
      (afterSteps setup cache progress).workspace? = some setup.workspace := by
  unfold afterSteps
  split
  · split <;> exact .inr rfl
  · exact .inr rfl
  · exact .inl rfl
  · exact .inr rfl

/-- What a turn does to the files, with the workspace of the run before and after it. -/
inductive Touches (job : Job) (reply : Reply) (plan : Plan) (files : FileSystem) :
    Option Workspace → FileSystem → Option Workspace → Prop
  | nothing (before after : Option Workspace) : after = none ∨ after = before →
      Touches job reply plan files before files after
  | replied (workspace : Workspace) (after : Option Workspace) :
      after = none ∨ after = some workspace →
      Touches job reply plan files (some workspace) (reply.files files) after
  | staged (files' : FileSystem) (result : Except WorkspaceError Workspace) :
      Workspace.stage files job.temporary job.directory plan = (files', result) →
      Touches job reply plan files none files' result.toOption
  | restored (workspace : Workspace) (found : Resolution) :
      Touches job reply plan files (some workspace)
        (found.restore files (job.workflow.cache.directoryFor plan)).1 (some workspace)
  | removed (workspace : Workspace) :
      Touches job reply plan files (some workspace) (Workspace.remove files workspace) none
  | gaveUp (workspace : Workspace) :
      Touches job reply plan files (some workspace)
        (Workspace.remove (reply.files files) workspace) none

theorem touches_turn (job : Job) (reply : Reply) (shared : Shared) (task : Task) :
    Touches job reply task.plan shared.scene.files task.stage.workspace?
      (task.turn job reply shared).shared.scene.files
      (task.turn job reply shared).stage.workspace? := by
  have ht := takes_turn job reply shared task
  generalize task.turn job reply shared = turn at ht ⊢
  generalize task.stage = stage at ht ⊢
  cases ht with
  | stagingFailed version files e hs => exact .staged files (.error e) hs
  | staged version files workspace hs => exact .staged files (.ok workspace) hs
  | provisioningWaits version workspace asked => exact .replied workspace _ (.inr rfl)
  | provisioningPanics version workspace asked message => exact .gaveUp workspace
  | provisioningFailed version workspace asked e => exact .replied workspace _ (.inr rfl)
  | provisioned version workspace asked toolchain => exact .replied workspace _ (.inr rfl)
  | restored setup key found files status hr =>
      have hfiles : (found.restore shared.scene.files
          (job.workflow.cache.directoryFor task.plan)).1 = files := by rw [hr]
      exact hfiles ▸ .restored setup.workspace found
  | stepped setup cache progress turn hturn =>
      have hstage := workspace?_afterSteps setup cache turn.progress
      rcases progress.files_advance (context job task.plan setup) reply shared.scene with hf | hf
      · rw [hturn] at hf
        simp only [hf]
        exact .nothing _ _ hstage
      · rw [hturn] at hf
        simp only [hf]
        exact .replied setup.workspace _ hstage
  | stepPanics setup cache progress turn message hturn =>
      rcases progress.files_advance (context job task.plan setup) reply shared.scene with hf | hf
      · rw [hturn] at hf
        simp only [discard, hf]
        exact .removed setup.workspace
      · rw [hturn] at hf
        simp only [discard, hf]
        exact .gaveUp setup.workspace
  | closed workspace cache results status =>
      cases workspace with
      | none => exact .nothing _ _ (.inl rfl)
      | some workspace => exact .removed workspace
  | ended stage h =>
      rcases h with ⟨run, rfl⟩ | ⟨message, rfl⟩
      · exact .nothing _ _ (.inl rfl)
      · exact .nothing _ _ (.inl rfl)
  | _ => exact .nothing _ _ (by simp [Stage.workspace?, setupFailed])

end Task

end BuildMatrix
