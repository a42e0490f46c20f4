import BuildMatrix.Cache.Resolution
import BuildMatrix.Execution.Progress
import BuildMatrix.Run.Event
import BuildMatrix.Workflow.Basic
import BuildMatrix.Workspace

/-!
# Tasks

The run of one plan is a task. It stages a workspace, has an interpreter provisioned, restores the
cache, carries out the steps and saves the cache, and at its end its workspace is removed. It does
so in turns, and between two of them anything may happen to what it shares with others: each
operation on the store is a turn of its own. The signal to cancel is tested at four places only:
before staging, whenever the task waits for its interpreter, before each step and whenever a step
is in flight.
-/

namespace BuildMatrix

/-- What the tasks of one execution have in common. -/
structure Job where
  workflow : Workflow
  /-- The package root. -/
  directory : String
  /-- Where workspaces are made. -/
  temporary : String
deriving DecidableEq, Repr

/-- What the tasks of one execution share and change. -/
structure Shared where
  scene : Scene
  store : CacheStore

/-- What a run has once its interpreter is provisioned. -/
structure Setup where
  workspace : Workspace
  toolchain : Toolchain
deriving DecidableEq, Repr

/-- The cache of a run that has a key, and what was found under it. -/
abbrev RestoredCache := Option (CacheKey × CacheStatus)

/-- How far a task has come. -/
inductive Stage where
  | spawned
  | begun
  | staging (version : String)
  | provisioning (version : String) (workspace : Workspace) (asked : Bool)
  | provisioned (setup : Setup)
  /-- The exact key is looked up next, or, after it, the starts of others. -/
  | lookingUp (setup : Setup) (key : CacheKey) (stems : Option (List String))
  | restoring (setup : Setup) (key : CacheKey) (found : Resolution)
  | stepping (setup : Setup) (cache : RestoredCache) (progress : Progress)
  | packing (setup : Setup) (key : CacheKey) (status : CacheStatus) (results : List StepResult)
  | saving (setup : Setup) (key : CacheKey) (status : CacheStatus) (results : List StepResult)
      (payload : Bytes)
  | closing (workspace : Option Workspace) (cache : RestoredCache) (results : List StepResult)
      (status : RunStatus)
  | finished (run : Run)
  /-- The host panicked. -/
  | aborted (message : String)
deriving DecidableEq, Repr

structure Task where
  plan : Plan
  startedAt : Instant
  stage : Stage
deriving DecidableEq, Repr

/-- What is written down of an execution. -/
inductive Entry where
  | event (event : Event)
  | asked (version : String)
  /-- A command was handed over, with the files as they were. -/
  | handed (command : Command) (files : FileSystem)

namespace Task

/-- The environment variable that names the cache directory of a plan. -/
def cacheVariable : String := "PIP_CACHE_DIR"

def spawn (plan : Plan) (now : Instant) : Task := ⟨plan, now, .spawned⟩

/-- The context in which the steps of a plan are carried out. -/
def context (job : Job) (plan : Plan) (setup : Setup) : RunContext :=
  { plan
    toolchain := setup.toolchain
    directory := setup.workspace.path
    environment :=
      job.workflow.environment.set cacheVariable (job.workflow.cache.directoryFor plan) }

structure Turn where
  stage : Stage
  shared : Shared
  entries : List Entry

/-- The failure of a plan that asks for no version. -/
def noVersion (job : Job) : StepFailure :=
  .provision "" s!"plan has no '{job.workflow.versionAxis}' value"

/-- The end of a run before its first step. -/
def setupFailed (workspace : Option Workspace) (failure : StepFailure) : Stage :=
  .closing workspace none [] (.failed setupStep failure)

/-- What is written down of the steps of a plan. -/
def entryOf (plan : Plan) : Notice → Entry
  | .started step => .event (.stepStarted plan step.name)
  | .handed command files => .handed command files
  | .finished result => .event (.stepFinished plan result.step result.outcome)

/-- Removes the workspace of a run, if it has one. -/
def discard (shared : Shared) : Option Workspace → Shared
  | none => shared
  | some workspace =>
    { shared with
      scene := { shared.scene with files := Workspace.remove shared.scene.files workspace } }

/-- Where a run goes on when its steps have got a turn. -/
def afterSteps (setup : Setup) (cache : RestoredCache) : Progress → Stage
  | .ended results .completed =>
    match cache with
    | none | some (_, .hit) => .closing setup.workspace cache results .completed
    | some (key, status) => .packing setup key status results
  | .ended results status => .closing setup.workspace cache results status
  | .aborted message => .aborted message
  | progress => .stepping setup cache progress

/-- The answer of a store operation, which the host may let fail. -/
def storeAnswer {α : Type} (reply : Reply) (method : StoreMethod) (answer : Except StoreError α) :
    Except StoreError α :=
  if reply.storeFails then .error ⟨method⟩ else answer

def record (task : Task) (cache : RestoredCache) (results : List StepResult) (status : RunStatus)
    (now : Instant) : Run :=
  { plan := task.plan
    cacheKey := cache.map fun c => c.1.render
    cacheStatus := cache.map (·.2)
    results, status
    startedAt := task.startedAt
    completedAt := some now }

def turn (job : Job) (reply : Reply) (shared : Shared) (task : Task) : Turn :=
  let plan := task.plan
  let policy := job.workflow.cache
  let scene := shared.scene
  match task.stage with
  | .spawned => ⟨.begun, shared, [.event (.runStarted plan)]⟩
  | .begun =>
    if scene.cancelled then ⟨.closing none none [] (.cancelled none), shared, []⟩
    else match job.workflow.versionFor? plan with
      | none => ⟨setupFailed none (noVersion job), shared, []⟩
      | some version => ⟨.staging version, shared, []⟩
  | .staging version =>
    match Workspace.stage scene.files job.temporary job.directory plan with
    | (files, result) =>
      let shared := { shared with scene := { scene with files } }
      match result with
      | .error e => ⟨setupFailed none (.workspace e.message), shared, []⟩
      | .ok workspace => ⟨.provisioning version workspace false, shared, []⟩
  | .provisioning version workspace asked =>
    if scene.cancelled then
      ⟨.closing workspace none [] (.cancelled (some setupStep)), shared, []⟩
    else
      let entries := if asked then [] else [.asked version]
      let shared := { shared with scene := scene.after reply }
      match reply.toolchain with
      | .pending => ⟨.provisioning version workspace true, shared, entries⟩
      | .panicked message => ⟨.aborted message, discard shared workspace, entries⟩
      | .ready (.error e) =>
        ⟨setupFailed workspace (.provision version e.message), shared, entries⟩
      | .ready (.ok toolchain) =>
        ⟨.provisioned ⟨workspace, toolchain⟩, shared,
          entries ++ [.event (.provisioned plan toolchain.interpreter)]⟩
  | .provisioned setup =>
    match policy.keyFor scene.files job.directory with
    | .error _ => ⟨.stepping setup none (.start job.workflow.steps), shared, []⟩
    | .ok key => ⟨.lookingUp setup key none, shared, []⟩
  | .lookingUp setup key none =>
    match storeAnswer reply .get (shared.store.get key.render) with
    | .ok (some entry) => ⟨.restoring setup key ⟨.hit, entry.payload⟩, shared, []⟩
    | _ => ⟨.lookingUp setup key (some (policy.stemsFor key)), shared, []⟩
  | .lookingUp setup key (some []) => ⟨.restoring setup key .miss, shared, []⟩
  | .lookingUp setup key (some (stem :: stems)) =>
    match storeAnswer reply .newest (shared.store.newest stem) with
    | .ok (some entry) => ⟨.restoring setup key ⟨.partialHit entry.key, entry.payload⟩, shared, []⟩
    | _ => ⟨.lookingUp setup key (some stems), shared, []⟩
  | .restoring setup key found =>
    let (files, status) := found.restore scene.files (policy.directoryFor plan)
    ⟨.stepping setup (some (key, status)) (.start job.workflow.steps),
      { shared with scene := { scene with files } },
      [.event (.cacheRestored plan key.render status)]⟩
  | .stepping setup cache progress =>
    let turn := progress.advance (context job plan setup) reply scene
    let shared := { shared with scene := turn.scene }
    let entries := turn.notices.map (entryOf plan)
    match afterSteps setup cache turn.progress with
    | .aborted message => ⟨.aborted message, discard shared setup.workspace, entries⟩
    | stage => ⟨stage, shared, entries⟩
  | .packing setup key status results =>
    match Archive.pack scene.files (policy.directoryFor plan) with
    | .ok payload => ⟨.saving setup key status results payload, shared, []⟩
    | .error _ => ⟨.closing setup.workspace (some (key, status)) results .completed, shared, []⟩
  | .saving setup key status results payload =>
    let stage := .closing setup.workspace (some (key, status)) results .completed
    match storeAnswer reply .put (shared.store.put ⟨key.render, payload, scene.clock⟩) with
    | .ok (store, outcome) =>
      ⟨stage, { shared with store }, [.event (.cacheSaved plan key.render outcome)]⟩
    | .error _ => ⟨stage, shared, []⟩
  | .closing workspace cache results status =>
    ⟨.finished (task.record cache results status scene.clock), discard shared workspace,
      [.event (.runFinished plan status)]⟩
  | stage => ⟨stage, shared, []⟩

/-- The run of a task, once it has ended in order. -/
def run? (task : Task) : Option Run :=
  match task.stage with
  | .finished run => some run
  | _ => none

/-- Whether a task gets no further turns. -/
def isOver (task : Task) : Bool :=
  match task.stage with
  | .finished _ | .aborted _ => true
  | _ => false

end Task

end BuildMatrix
