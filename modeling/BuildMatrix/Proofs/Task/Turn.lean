import BuildMatrix.Execution.Task
import BuildMatrix.Proofs.Progress.Run

/-!
# The turns of a task

All that one turn of a task can do, once and for all: a constructor for each way in which a stage is
left or kept, with the conditions under which it is. What is proved about tasks is proved by cases
on this relation.
-/

namespace BuildMatrix.Task

def withFiles (shared : Shared) (files : FileSystem) : Shared :=
  { shared with scene := { shared.scene with files } }

def afterReply (shared : Shared) (reply : Reply) : Shared :=
  { shared with scene := shared.scene.after reply }

/-- A request for an interpreter is written down when it is made. -/
def request (version : String) (asked : Bool) : List Entry := if asked then [] else [.asked version]

@[simp] theorem cancelled_withFiles (shared : Shared) (files : FileSystem) :
    (withFiles shared files).scene.cancelled = shared.scene.cancelled := rfl

@[simp] theorem store_withFiles (shared : Shared) (files : FileSystem) :
    (withFiles shared files).store = shared.store := rfl

@[simp] theorem store_afterReply (shared : Shared) (reply : Reply) :
    (afterReply shared reply).store = shared.store := rfl

@[simp] theorem cancelled_discard (shared : Shared) (workspace : Option Workspace) :
    (discard shared workspace).scene.cancelled = shared.scene.cancelled := by
  cases workspace <;> rfl

@[simp] theorem store_discard (shared : Shared) (workspace : Option Workspace) :
    (discard shared workspace).store = shared.store := by
  cases workspace <;> rfl

/-- What a turn of a task can do. -/
inductive Takes (job : Job) (reply : Reply) (shared : Shared) (task : Task) : Stage → Turn → Prop
  | spawned : Takes job reply shared task .spawned
      ⟨.begun, shared, [.event (.runStarted task.plan)]⟩
  | begunCancelled : shared.scene.cancelled →
      Takes job reply shared task .begun ⟨.closing none none [] (.cancelled none), shared, []⟩
  | begunWithoutVersion : shared.scene.cancelled = false →
      job.workflow.versionFor? task.plan = none →
      Takes job reply shared task .begun ⟨setupFailed none (noVersion job), shared, []⟩
  | begun (version : String) : shared.scene.cancelled = false →
      job.workflow.versionFor? task.plan = some version →
      Takes job reply shared task .begun ⟨.staging version, shared, []⟩
  | stagingFailed (version : String) (files : FileSystem) (e : WorkspaceError) :
      Workspace.stage shared.scene.files job.temporary job.directory task.plan =
        (files, .error e) →
      Takes job reply shared task (.staging version)
        ⟨setupFailed none (.workspace e.message), withFiles shared files, []⟩
  | staged (version : String) (files : FileSystem) (workspace : Workspace) :
      Workspace.stage shared.scene.files job.temporary job.directory task.plan =
        (files, .ok workspace) →
      Takes job reply shared task (.staging version)
        ⟨.provisioning version workspace false, withFiles shared files, []⟩
  | provisioningCancelled (version : String) (workspace : Workspace) (asked : Bool) :
      shared.scene.cancelled →
      Takes job reply shared task (.provisioning version workspace asked)
        ⟨.closing workspace none [] (.cancelled (some setupStep)), shared, []⟩
  | provisioningWaits (version : String) (workspace : Workspace) (asked : Bool) :
      shared.scene.cancelled = false → reply.toolchain = .pending →
      Takes job reply shared task (.provisioning version workspace asked)
        ⟨.provisioning version workspace true, afterReply shared reply, request version asked⟩
  | provisioningPanics (version : String) (workspace : Workspace) (asked : Bool)
      (message : String) : shared.scene.cancelled = false → reply.toolchain = .panicked message →
      Takes job reply shared task (.provisioning version workspace asked)
        ⟨.aborted message, discard (afterReply shared reply) workspace, request version asked⟩
  | provisioningFailed (version : String) (workspace : Workspace) (asked : Bool)
      (e : ProvisionError) : shared.scene.cancelled = false → reply.toolchain = .ready (.error e) →
      Takes job reply shared task (.provisioning version workspace asked)
        ⟨setupFailed workspace (.provision version e.message), afterReply shared reply,
          request version asked⟩
  | provisioned (version : String) (workspace : Workspace) (asked : Bool) (toolchain : Toolchain) :
      shared.scene.cancelled = false → reply.toolchain = .ready (.ok toolchain) →
      Takes job reply shared task (.provisioning version workspace asked)
        ⟨.provisioned ⟨workspace, toolchain⟩, afterReply shared reply,
          request version asked ++ [.event (.provisioned task.plan toolchain.interpreter)]⟩
  | withoutKey (setup : Setup) (e : ManifestError) :
      job.workflow.cache.keyFor shared.scene.files job.directory = .error e →
      Takes job reply shared task (.provisioned setup)
        ⟨.stepping setup none (.start job.workflow.steps), shared, []⟩
  | withKey (setup : Setup) (key : CacheKey) :
      job.workflow.cache.keyFor shared.scene.files job.directory = .ok key →
      Takes job reply shared task (.provisioned setup) ⟨.lookingUp setup key none, shared, []⟩
  | found (setup : Setup) (key : CacheKey) (entry : CacheEntry) :
      storeAnswer reply .get (shared.store.get key.render) = .ok (some entry) →
      Takes job reply shared task (.lookingUp setup key none)
        ⟨.restoring setup key ⟨.hit, entry.payload⟩, shared, []⟩
  | notFound (setup : Setup) (key : CacheKey) :
      (∀ entry, storeAnswer reply .get (shared.store.get key.render) ≠ .ok (some entry)) →
      Takes job reply shared task (.lookingUp setup key none)
        ⟨.lookingUp setup key (some (job.workflow.cache.stemsFor key)), shared, []⟩
  | missed (setup : Setup) (key : CacheKey) :
      Takes job reply shared task (.lookingUp setup key (some []))
        ⟨.restoring setup key .miss, shared, []⟩
  | foundOther (setup : Setup) (key : CacheKey) (stem : String) (stems : List String)
      (entry : CacheEntry) :
      storeAnswer reply .newest (shared.store.newest stem) = .ok (some entry) →
      Takes job reply shared task (.lookingUp setup key (some (stem :: stems)))
        ⟨.restoring setup key ⟨.partialHit entry.key, entry.payload⟩, shared, []⟩
  | notFoundOther (setup : Setup) (key : CacheKey) (stem : String) (stems : List String) :
      (∀ entry, storeAnswer reply .newest (shared.store.newest stem) ≠ .ok (some entry)) →
      Takes job reply shared task (.lookingUp setup key (some (stem :: stems)))
        ⟨.lookingUp setup key (some stems), shared, []⟩
  | restored (setup : Setup) (key : CacheKey) (found : Resolution) (files : FileSystem)
      (status : CacheStatus) :
      found.restore shared.scene.files (job.workflow.cache.directoryFor task.plan) =
        (files, status) →
      Takes job reply shared task (.restoring setup key found)
        ⟨.stepping setup (some (key, status)) (.start job.workflow.steps),
          withFiles shared files, [.event (.cacheRestored task.plan key.render status)]⟩
  | stepped (setup : Setup) (cache : RestoredCache) (progress : Progress)
      (turn : Progress.Turn) :
      progress.advance (context job task.plan setup) reply shared.scene = turn →
      (∀ message, turn.progress ≠ .aborted message) →
      Takes job reply shared task (.stepping setup cache progress)
        ⟨afterSteps setup cache turn.progress, { shared with scene := turn.scene },
          turn.notices.map (entryOf task.plan)⟩
  | stepPanics (setup : Setup) (cache : RestoredCache) (progress : Progress)
      (turn : Progress.Turn) (message : String) :
      progress.advance (context job task.plan setup) reply shared.scene = turn →
      turn.progress = .aborted message →
      Takes job reply shared task (.stepping setup cache progress)
        ⟨.aborted message, discard { shared with scene := turn.scene } setup.workspace,
          turn.notices.map (entryOf task.plan)⟩
  | packed (setup : Setup) (key : CacheKey) (status : CacheStatus) (results : List StepResult)
      (payload : Bytes) :
      Archive.pack shared.scene.files (job.workflow.cache.directoryFor task.plan) = .ok payload →
      Takes job reply shared task (.packing setup key status results)
        ⟨.saving setup key status results payload, shared, []⟩
  | notPacked (setup : Setup) (key : CacheKey) (status : CacheStatus) (results : List StepResult)
      (e : ArchiveError) :
      Archive.pack shared.scene.files (job.workflow.cache.directoryFor task.plan) = .error e →
      Takes job reply shared task (.packing setup key status results)
        ⟨.closing setup.workspace (some (key, status)) results .completed, shared, []⟩
  | saved (setup : Setup) (key : CacheKey) (status : CacheStatus) (results : List StepResult)
      (payload : Bytes) (store : CacheStore) (outcome : PutOutcome) :
      storeAnswer reply .put (shared.store.put ⟨key.render, payload, shared.scene.clock⟩) =
        .ok (store, outcome) →
      Takes job reply shared task (.saving setup key status results payload)
        ⟨.closing setup.workspace (some (key, status)) results .completed,
          { shared with store }, [.event (.cacheSaved task.plan key.render outcome)]⟩
  | notSaved (setup : Setup) (key : CacheKey) (status : CacheStatus) (results : List StepResult)
      (payload : Bytes) (e : StoreError) :
      storeAnswer reply .put (shared.store.put ⟨key.render, payload, shared.scene.clock⟩) =
        .error e →
      Takes job reply shared task (.saving setup key status results payload)
        ⟨.closing setup.workspace (some (key, status)) results .completed, shared, []⟩
  | closed (workspace : Option Workspace) (cache : RestoredCache) (results : List StepResult)
      (status : RunStatus) :
      Takes job reply shared task (.closing workspace cache results status)
        ⟨.finished (task.record cache results status shared.scene.clock),
          discard shared workspace, [.event (.runFinished task.plan status)]⟩
  | ended (stage : Stage) : (∃ run, stage = .finished run) ∨ (∃ message, stage = .aborted message) →
      Takes job reply shared task stage ⟨stage, shared, []⟩

theorem afterSteps_eq_aborted_iff (setup : Setup) (cache : RestoredCache) (progress : Progress)
    (message : String) :
    afterSteps setup cache progress = .aborted message ↔ progress = .aborted message := by
  unfold afterSteps
  split <;> (try split) <;> simp_all

/-- A turn of a task is one of those that the relation lists. -/
theorem takes_turn (job : Job) (reply : Reply) (shared : Shared) (task : Task) :
    Takes job reply shared task task.stage (task.turn job reply shared) := by
  unfold turn
  generalize task.stage = stage
  cases stage with
  | spawned => exact .spawned
  | begun =>
      by_cases hc : shared.scene.cancelled
      · simpa [hc] using .begunCancelled hc
      · have hc : shared.scene.cancelled = false := by simpa using hc
        cases hv : job.workflow.versionFor? task.plan with
        | none => simpa [hc, hv] using .begunWithoutVersion hc hv
        | some version => simpa [hc, hv] using .begun version hc hv
  | staging version =>
      cases hs : Workspace.stage shared.scene.files job.temporary job.directory task.plan with
      | mk files result =>
          cases result with
          | error e => simpa [hs] using .stagingFailed version files e hs
          | ok workspace => simpa [hs] using .staged version files workspace hs
  | provisioning version workspace asked =>
      by_cases hc : shared.scene.cancelled
      · simpa [hc] using .provisioningCancelled version workspace asked hc
      · have hc : shared.scene.cancelled = false := by simpa using hc
        cases ht : reply.toolchain with
        | pending => simpa [hc, ht] using .provisioningWaits version workspace asked hc ht
        | panicked message =>
            simpa [hc, ht] using .provisioningPanics version workspace asked message hc ht
        | ready result =>
            cases result with
            | error e => simpa [hc, ht] using .provisioningFailed version workspace asked e hc ht
            | ok toolchain =>
                simpa [hc, ht] using .provisioned version workspace asked toolchain hc ht
  | provisioned setup =>
      cases hk : job.workflow.cache.keyFor shared.scene.files job.directory with
      | error e => simpa [hk] using .withoutKey setup e hk
      | ok key => simpa [hk] using .withKey setup key hk
  | lookingUp setup key stems =>
      match stems with
      | none =>
          cases hg : storeAnswer reply .get (shared.store.get key.render) with
          | error e => simpa [hg] using .notFound setup key (by simp [hg])
          | ok found =>
              cases found with
              | none => simpa [hg] using .notFound setup key (by simp [hg])
              | some entry => simpa [hg] using .found setup key entry hg
      | some [] => exact .missed setup key
      | some (stem :: stems) =>
          cases hg : storeAnswer reply .newest (shared.store.newest stem) with
          | error e => simpa [hg] using .notFoundOther setup key stem stems (by simp [hg])
          | ok found =>
              cases found with
              | none => simpa [hg] using .notFoundOther setup key stem stems (by simp [hg])
              | some entry => simpa [hg] using .foundOther setup key stem stems entry hg
  | restoring setup key found => exact .restored _ _ _ _ _ rfl
  | stepping setup cache progress =>
      generalize hturn :
        progress.advance (context job task.plan setup) reply shared.scene = turn
      simp only [hturn]
      split
      · next message ha =>
          exact .stepPanics setup cache progress turn message hturn
            ((afterSteps_eq_aborted_iff setup cache turn.progress message).mp ha)
      · next hn =>
          refine .stepped setup cache progress turn hturn fun message hp => hn message ?_
          exact (afterSteps_eq_aborted_iff setup cache turn.progress message).mpr hp
  | packing setup key status results =>
      cases hp : Archive.pack shared.scene.files
          (job.workflow.cache.directoryFor task.plan) with
      | error e => simpa [hp] using .notPacked setup key status results e hp
      | ok payload => simpa [hp] using .packed setup key status results payload hp
  | saving setup key status results payload =>
      cases hs : storeAnswer reply .put
          (shared.store.put ⟨key.render, payload, shared.scene.clock⟩) with
      | error e => simpa [hs] using .notSaved setup key status results payload e hs
      | ok result =>
          simpa [hs] using .saved setup key status results payload result.1 result.2 hs
  | closing workspace cache results status => exact .closed _ _ _ _
  | finished run => exact .ended _ (.inl ⟨run, rfl⟩)
  | aborted message => exact .ended _ (.inr ⟨message, rfl⟩)

def after (task : Task) (job : Job) (reply : Reply) (shared : Shared) : Task :=
  { task with stage := (task.turn job reply shared).stage }

@[simp] theorem plan_after (task : Task) (job : Job) (reply : Reply) (shared : Shared) :
    (task.after job reply shared).plan = task.plan := rfl

@[simp] theorem stage_after (task : Task) (job : Job) (reply : Reply) (shared : Shared) :
    (task.after job reply shared).stage = (task.turn job reply shared).stage := rfl

theorem turn_of_isOver {task : Task} (h : task.isOver) (job : Job) (reply : Reply)
    (shared : Shared) : task.turn job reply shared = ⟨task.stage, shared, []⟩ := by
  unfold isOver at h
  unfold turn
  cases hs : task.stage <;> simp_all

theorem after_of_isOver {task : Task} (h : task.isOver) (job : Job) (reply : Reply)
    (shared : Shared) : task.after job reply shared = task := by
  simp [after, turn_of_isOver h]

theorem cancelled_turn {job : Job} {reply : Reply} {shared : Shared} {task : Task}
    (h : shared.scene.cancelled) : (task.turn job reply shared).shared.scene.cancelled := by
  have ht := takes_turn job reply shared task
  generalize task.turn job reply shared = turn at ht ⊢
  generalize task.stage = stage at ht
  cases ht with
  | stepped setup cache progress turn hturn _ =>
      exact hturn ▸ Progress.cancelled_advance _ _ _ _ h
  | stepPanics setup cache progress turn message hturn _ =>
      simpa using hturn ▸ Progress.cancelled_advance _ _ _ _ h
  | _ => simp_all

/-- Only the host and its callers cancel. -/
theorem not_cancelled_turn {job : Job} {reply : Reply} {shared : Shared} {task : Task}
    (hc : shared.scene.cancelled = false) (hr : reply.cancels = false) :
    (task.turn job reply shared).shared.scene.cancelled = false := by
  have hafter : (afterReply shared reply).scene.cancelled = false := by
    simp [afterReply, Scene.after, hc, hr]
  have ht := takes_turn job reply shared task
  generalize task.turn job reply shared = turn at ht ⊢
  generalize task.stage = stage at ht
  cases ht with
  | stepped setup cache progress turn hturn _ =>
      exact hturn ▸ Progress.not_cancelled_advance _ _ _ _ hc hr
  | stepPanics setup cache progress turn message hturn _ =>
      simpa using hturn ▸ Progress.not_cancelled_advance _ _ _ _ hc hr
  | _ => simp_all

end BuildMatrix.Task
