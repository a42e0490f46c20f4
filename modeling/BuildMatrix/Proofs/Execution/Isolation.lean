import BuildMatrix.Proofs.Execution.Forecast
import BuildMatrix.Proofs.Execution.Housing
import Mathlib.Data.List.Infix

/-!
# Runs in isolation

The runs of an execution share the files of their host, a store and a clock. Nevertheless a run ends
as it is foreseen from what the host answers to it alone: whatever the other runs do, whatever the
store holds and whichever of its operations fail.
-/

namespace BuildMatrix

open FileSystem

def Site.copy (site : Site) : Node := .directory (Workspace.pruned site.entries)

/-- What the host answers to a run whose turn it is. Nothing else than its commands changes what the
workspace of the run holds. -/
def Treatment.Gives (treatment : Treatment) (site : Site) (files : FileSystem) (reply : Reply) :
    Stage → Prop
  | .provisioning _ workspace _ =>
    (reply.toolchain = .pending ∨ reply.toolchain = .ready treatment.toolchain) ∧
      (reply.files files).root.get? (site.home workspace) =
        files.root.get? (site.home workspace)
  | .stepping setup _ (.busy results _ _ _ _) => reply.output = .pending ∨
    reply.output = .ready (treatment.answers results.length) ∧
      (reply.files files).root.get? (site.home setup.workspace) =
        some (treatment.left results.length)
  | _ => True

namespace Outlook

/-- A run that ends as it is foreseen, unless it was not staged. -/
def Ends (o : Outlook) (site : Site) (results : List StepResult) (status : RunStatus) : Prop :=
  (∃ message, status = .failed setupStep (.workspace message)) ∨
    (results.map StepResult.outline, status) = o.run site.copy

def IsReady (o : Outlook) (site : Site) (files : FileSystem) (setup : Setup) : Prop :=
  files.root.get? (site.home setup.workspace) = some site.copy ∧
    o.staysInside setup.toolchain site.copy 0 o.job.workflow.steps ∧
    o.steps setup.toolchain site.copy [] o.job.workflow.steps = o.run site.copy

/-- A run that has come to a stage as it is foreseen. -/
def Meets (o : Outlook) (site : Site) (files : FileSystem) : Stage → Prop
  | .spawned | .begun => True
  | .staging version => o.job.workflow.versionFor? o.plan = some version
  | .provisioning version workspace _ => o.job.workflow.versionFor? o.plan = some version ∧
    files.root.get? (site.home workspace) = some site.copy
  | .provisioned setup | .lookingUp setup _ _ | .restoring setup _ _ => o.IsReady site files setup
  | .stepping setup _ progress => o.Foresees setup.toolchain (o.run site.copy)
    (fun tree => files.root.get? (site.home setup.workspace) = some tree) progress
  | .packing _ _ _ results | .saving _ _ _ results _ =>
    (results.map StepResult.outline, .completed) = o.run site.copy
  | .closing _ _ results status => o.Ends site results status
  | .finished run => o.Ends site run.results run.status
  | .aborted _ => False

section
variable {o : Outlook} {site : Site} {plans : List Plan} {before files files' : FileSystem}

/-- What is foreseen depends only on what the workspace of the run holds. -/
theorem Meets.frame {stage : Stage} (h : o.Meets site files stage)
    (hsame : ∀ workspace, stage.workspace? = some workspace →
      files'.root.get? (site.home workspace) = files.root.get? (site.home workspace)) :
    o.Meets site files' stage := by
  cases stage with
  | provisioning version workspace asked => exact ⟨h.1, by rw [hsame workspace rfl, h.2]⟩
  | provisioned setup => exact ⟨by rw [hsame setup.workspace rfl, h.1], h.2⟩
  | lookingUp setup key stems => exact ⟨by rw [hsame setup.workspace rfl, h.1], h.2⟩
  | restoring setup key found => exact ⟨by rw [hsame setup.workspace rfl, h.1], h.2⟩
  | stepping setup cache progress =>
      simp only [Meets] at h ⊢
      rwa [hsame setup.workspace rfl]
  | _ => exact h

theorem meets_afterSteps {setup : Setup} {cache : RestoredCache} {progress : Progress}
    (h : o.Foresees setup.toolchain (o.run site.copy)
      (fun tree => files.root.get? (site.home setup.workspace) = some tree) progress) :
    o.Meets site files (Task.afterSteps setup cache progress) := by
  unfold Task.afterSteps
  split
  · split
    · exact .inr h
    · exact .inr h
    · exact h
  · exact .inr h
  · exact h.elim
  · exact h

theorem skipReason?_eq (hsite : site.Holds o.job plans before) (hkept : site.Kept before files)
    {setup : Setup} (hhouses : site.Houses o.job before files setup.workspace)
    (hlinks : o.links = site.links) (hsize : setup.workspace.path.utf8ByteSize = o.size)
    {tree : Node} {step : Step}
    (htree : files.root.get? (site.home setup.workspace) = some tree)
    (hinside : o.looksInside tree step) :
    step.skipReason? files (Task.context o.job o.plan setup) = o.skips tree step := by
  unfold Step.skipReason? skips
  unfold looksInside at hinside
  generalize step.action = action at hinside ⊢
  cases action with
  | package action =>
      cases action with
      | installManifest manifest =>
          simp only [Bool.and_eq_true, Bool.not_eq_true'] at hinside
          have hfile := hhouses.isFile_join hsite hkept htree hinside.1 (hlinks ▸ hinside.2)
          rw [hsize, ← hlinks] at hfile
          simp only [Task.context, hfile]
      | _ => rfl
  | _ => rfl

theorem isReady_provisioned {version : String} {setup : Setup}
    (hversion : o.job.workflow.versionFor? o.plan = some version)
    (htoolchain : o.treatment.toolchain = .ok setup.toolchain)
    (hcopy : files.root.get? (site.home setup.workspace) = some site.copy)
    (hinside : o.staysInside setup.toolchain site.copy 0 o.job.workflow.steps) :
    o.IsReady site files setup :=
  ⟨hcopy, hinside, by simp [run, hversion, htoolchain]⟩

theorem IsReady.foresees {setup : Setup} (h : o.IsReady site files setup) :
    o.Foresees setup.toolchain (o.run site.copy)
      (fun tree => files.root.get? (site.home setup.workspace) = some tree)
      (.start o.job.workflow.steps) :=
  ⟨site.copy, h.1, h.2.1, h.2.2⟩

theorem IsReady.restored {setup : Setup} (h : o.IsReady site files setup)
    (hsite : site.Holds o.job plans before) (hkept : site.Kept before files)
    (hhouses : site.Houses o.job before files setup.workspace) (hmem : o.plan ∈ plans)
    (found : Resolution) :
    o.IsReady site (found.restore files (o.job.workflow.cache.directoryFor o.plan)).1 setup :=
  ⟨(hhouses.get?_restored hsite hkept hmem found).trans h.1, h.2⟩

theorem foresees_turn {reply : Reply} {scene : Scene} {setup : Setup} {cache : RestoredCache}
    {progress : Progress} (hsite : site.Holds o.job plans before)
    (hkept : site.Kept before scene.files)
    (hhouses : site.Houses o.job before scene.files setup.workspace)
    (hc : scene.cancelled = false) (hlinks : o.links = site.links)
    (hsize : setup.workspace.path.utf8ByteSize = o.size)
    (hgives : o.treatment.Gives site scene.files reply (.stepping setup cache progress))
    (h : o.Meets site scene.files (.stepping setup cache progress)) :
    o.Foresees setup.toolchain (o.run site.copy) (fun tree =>
      (progress.advance (Task.context o.job o.plan setup) reply scene).scene.files.root.get?
        (site.home setup.workspace) = some tree)
      (progress.advance (Task.context o.job o.plan setup) reply scene).progress := by
  refine foresees_advance (Task.context o.job o.plan setup)
    (fun files tree => files.root.get? (site.home setup.workspace) = some tree) h hc ?_ ?_
  · intro tree step htree hlooks
    exact skipReason?_eq hsite hkept hhouses hlinks hsize htree hlooks
  · rintro results step rest handed startedAt rfl
    exact hgives

theorem meets_turn {tasks : List Task} {position : Nat} {task : Task} {reply : Reply}
    {shared : Shared} (hsite : site.Holds o.job plans before)
    (hhoused : site.Housed o.job before shared.scene.files tasks)
    (ht : tasks[position]? = some task) (hplan : task.plan = o.plan) (hmem : o.plan ∈ plans)
    (hc : shared.scene.cancelled = false) (hlinks : o.links = site.links)
    (hsize : ∀ workspace, task.stage.workspace? = some workspace →
      workspace.path.utf8ByteSize = o.size)
    (hinside : ∀ toolchain, o.treatment.toolchain = .ok toolchain →
      o.staysInside toolchain site.copy 0 o.job.workflow.steps)
    (hgives : o.treatment.Gives site shared.scene.files reply task.stage)
    (h : o.Meets site shared.scene.files task.stage) :
    o.Meets site (task.turn o.job reply shared).shared.scene.files
      (task.turn o.job reply shared).stage := by
  have htakes := Task.takes_turn o.job reply shared task
  have hhouses := hhoused.houses position task
  simp only [ht, forall_const] at hhouses
  have hkept := hhoused.kept
  generalize task.turn o.job reply shared = turn at htakes ⊢
  generalize task.stage = stage at htakes hgives hsize hhouses h ⊢
  cases htakes with
  | spawned => exact trivial
  | begunCancelled hcancelled => simp [hc] at hcancelled
  | begunWithoutVersion _ hnone =>
      rw [hplan] at hnone
      exact .inr (by simp [run, hnone])
  | begun version _ hversion =>
      rw [hplan] at hversion
      exact hversion
  | stagingFailed version files' e hs => exact .inl ⟨e.message, rfl⟩
  | staged version files' workspace hs => exact ⟨h, hsite.get?_staged hkept hs⟩
  | provisioningCancelled version workspace asked hcancelled => simp [hc] at hcancelled
  | provisioningWaits version workspace asked => exact ⟨h.1, hgives.2.trans h.2⟩
  | provisioningPanics version workspace asked message _ hpanics =>
      rcases hgives.1 with hr | hr
      · simp [hr] at hpanics
      · simp [hr] at hpanics
  | provisioningFailed version workspace asked e _ hfailed =>
      rcases hgives.1 with hr | hr
      · simp [hr] at hfailed
      · rw [hr, Answer.ready.injEq] at hfailed
        exact .inr (by simp [run, h.1, hfailed])
  | provisioned version workspace asked toolchain _ hprovisioned =>
      rcases hgives.1 with hr | hr
      · simp [hr] at hprovisioned
      · rw [hr, Answer.ready.injEq] at hprovisioned
        exact isReady_provisioned h.1 hprovisioned (hgives.2.trans h.2) (hinside _ hprovisioned)
  | withoutKey setup e => exact h.foresees
  | withKey setup key => exact h
  | found setup key entry => exact h
  | notFound setup key => exact h
  | missed setup key => exact h
  | foundOther setup key stem stems entry => exact h
  | notFoundOther setup key stem stems => exact h
  | restored setup key found files' status hr =>
      have hready := IsReady.restored h hsite hkept (hhouses _ rfl) hmem found
      rw [← hplan, hr] at hready
      exact hready.foresees
  | stepped setup cache progress turn' hturn =>
      have hforesees := foresees_turn hsite hkept (hhouses _ rfl) hc hlinks (hsize _ rfl) hgives h
      rw [← hplan, hturn] at hforesees
      exact meets_afterSteps hforesees
  | stepPanics setup cache progress turn' message hturn hpanics =>
      have hforesees := foresees_turn hsite hkept (hhouses _ rfl) hc hlinks (hsize _ rfl) hgives h
      rw [← hplan, hturn, hpanics] at hforesees
      exact hforesees.elim
  | packed setup key status results payload => exact h
  | notPacked setup key status results e => exact .inr h
  | saved setup key status results payload store outcome => exact .inr h
  | notSaved setup key status results payload e => exact .inr h
  | closed workspace cache results status => exact h
  | ended stage hover => exact h

end

end Outlook

/-- What may happen in an execution that nobody cancels and in which each run minds its own. One of
the runs is given the answers of a treatment. -/
def Site.Allows (site : Site) (treatment : Treatment) (position : Nat) (e : Execution) :
    Move → Prop
  | .cancel => False
  | .turn turned reply => reply.cancels = false ∧ ∀ task, e.tasks[turned]? = some task →
    (∀ workspace, task.stage.workspace? = some workspace →
      site.Minds workspace e.shared.scene.files (reply.files e.shared.scene.files)) ∧
    (turned = position → treatment.Gives site e.shared.scene.files reply task.stage)
  | _ => True

/-- An execution of which the outlook is on the run at a position. -/
structure Secludes (site : Site) (o : Outlook) (event : String) (position : Nat) (id : Ident)
    (shared : Shared) (moves : List Move) : Prop where
  holds : site.Holds o.job (Execution.plansFor o.job.workflow event) shared.scene.files
  uncancelled : shared.scene.cancelled = false
  allowed : ∀ done move, done ++ [move] <+: moves →
    site.Allows o.treatment position ((Execution.start o.job event id shared).run done) move
  /-- The names of workspaces are all of one length. -/
  size : ∀ done task workspace, done <+: moves →
    ((Execution.start o.job event id shared).run done).tasks[position]? = some task →
    task.stage.workspace? = some workspace → workspace.path.utf8ByteSize = o.size

namespace Execution

/-- The execution keeps to its site, and the run at the position to what is foreseen. -/
structure AsForeseen (site : Site) (o : Outlook) (event : String) (position : Nat)
    (before : FileSystem) (e : Execution) : Prop where
  uncancelled : e.shared.scene.cancelled = false
  housed : site.Housed o.job before e.shared.scene.files e.tasks
  plans : e.tasks.map (·.plan) = plansFor o.job.workflow event
  meets : ∀ task, e.tasks[position]? = some task →
    o.Meets site e.shared.scene.files task.stage

section
variable {site : Site} {o : Outlook} {event : String} {position : Nat} {before : FileSystem}
  {e : Execution}

theorem asForeseen_start {id : Ident} {shared : Shared}
    (hholds : site.Holds o.job (plansFor o.job.workflow event) shared.scene.files)
    (hc : shared.scene.cancelled = false) :
    AsForeseen site o event position shared.scene.files (start o.job event id shared) := by
  refine ⟨hc, Site.housed_start hholds, ?_, ?_⟩
  · simp [start, Task.spawn, Function.comp_def]
  · intro task ht
    rw [stage_start ht]
    exact trivial

section
variable (hplan : (plansFor o.job.workflow event)[position]? = some o.plan)
  (hlinks : o.links = site.links)
  (hinside : ∀ toolchain, o.treatment.toolchain = .ok toolchain →
    o.staysInside toolchain site.copy 0 o.job.workflow.steps)
include hplan hlinks hinside

theorem AsForeseen.turn (h : AsForeseen site o event position before e)
    (hsite : site.Holds o.job (plansFor o.job.workflow event) before) (hjob : e.job = o.job)
    (hsize : ∀ task workspace, e.tasks[position]? = some task →
      task.stage.workspace? = some workspace → workspace.path.utf8ByteSize = o.size)
    {turned : Nat} {reply : Reply}
    (hallowed : site.Allows o.treatment position e (.turn turned reply)) :
    AsForeseen site o event position before (e.turn turned reply) := by
  obtain ⟨hcancels, hreply⟩ := hallowed
  cases ht : e.tasks[turned]? with
  | none => rwa [turn_eq_self ht]
  | some task =>
      obtain ⟨hminds, hgives⟩ := hreply task ht
      have hplans : (plansFor o.job.workflow event)[turned]? = some task.plan := by
        rw [← h.plans, List.getElem?_map, ht]
        rfl
      have htouch := Task.touches_turn o.job reply e.shared task
      have hpasses := h.housed.turn hsite ht (List.mem_of_getElem? hplans) htouch hminds
      rw [turn_eq ht, hjob]
      refine ⟨Task.not_cancelled_turn h.uncancelled hcancels, hpasses.housed task, ?_, ?_⟩
      · simp only [List.map_set, Task.plan_after]
        rw [h.plans]
        obtain ⟨hlt, hget⟩ := List.getElem?_eq_some_iff.mp hplans
        rw [← hget, List.set_getElem_self]
      · intro task' ht'
        obtain ⟨rfl, rfl⟩ | ⟨hne, ht'⟩ := tasks_set_cases ht'
        · have hown : task.plan = o.plan := by
            rw [hplans] at hplan
            exact Option.some.inj hplan
          exact Outlook.meets_turn hsite h.housed ht hown (List.mem_of_getElem? hplan)
            h.uncancelled hlinks (hsize task · ht) hinside (hgives rfl) (h.meets task ht)
        · exact (h.meets task' ht').frame fun workspace hw =>
            hpasses.spares position task' workspace (Ne.symm hne) ht' hw

theorem AsForeseen.move (h : AsForeseen site o event position before e)
    (hsite : site.Holds o.job (plansFor o.job.workflow event) before) (hjob : e.job = o.job)
    (hsize : ∀ task workspace, e.tasks[position]? = some task →
      task.stage.workspace? = some workspace → workspace.path.utf8ByteSize = o.size)
    {move : Move} (hallowed : site.Allows o.treatment position e move) :
    AsForeseen site o event position before (e.move move) := by
  cases move with
  | cancel => exact hallowed.elim
  | tick now => exact ⟨h.uncancelled, h.housed, h.plans, h.meets⟩
  | turn turned reply => exact h.turn hplan hlinks hinside hsite hjob hsize hallowed
  | join =>
      have hj := e.joins_join
      simp only [Execution.move]
      generalize e.join = next at hj ⊢
      cases hj <;> exact ⟨h.uncancelled, h.housed, h.plans, h.meets⟩

/-- A run of which nothing else is known ends as it is foreseen, unless it was not staged. -/
theorem ends_as_foreseen {id : Ident} {shared : Shared} {moves : List Move} {report : Report}
    {run : Run} (h : Secludes site o event position id shared moves)
    (hreport : ((start o.job event id shared).run moves).report? = some report)
    (hrun : report.runs[position]? = some run) : o.Ends site run.results run.status := by
  have hforeseen : AsForeseen site o event position shared.scene.files
      ((start o.job event id shared).run moves) := by
    refine run_induction (asForeseen_start h.holds h.uncancelled) fun done move hp hdone => ?_
    refine hdone.move hplan hlinks hinside h.holds (job_run _ done) (fun task workspace => ?_)
      (h.allowed done move hp)
    exact h.size done task workspace ((List.prefix_append _ _).trans hp)
  have hjoined := joined_run (joined_start o.job event id shared) moves
  obtain ⟨hruns, -, -⟩ := report_runs hjoined hreport
  rw [hruns] at hrun
  obtain ⟨task, ht, hof⟩ := hjoined.runs position run hrun
  have hmeets := hforeseen.meets task ht
  cases hof with
  | finished run hs =>
      rw [hs] at hmeets
      exact hmeets
  | aborted message now hs =>
      rw [hs] at hmeets
      exact hmeets.elim

end

/-- Two executions in which the host gives one run the same answers end this run in the same way,
whatever else happens in them. -/
theorem runs_isolated {id₁ id₂ : Ident} {shared₁ shared₂ : Shared} {moves₁ moves₂ : List Move}
    {report₁ report₂ : Report} {run₁ run₂ : Run}
    (h₁ : Secludes site o event position id₁ shared₁ moves₁)
    (h₂ : Secludes site o event position id₂ shared₂ moves₂)
    (hplan : (plansFor o.job.workflow event)[position]? = some o.plan)
    (hlinks : o.links = site.links)
    (hinside : ∀ toolchain, o.treatment.toolchain = .ok toolchain →
      o.staysInside toolchain site.copy 0 o.job.workflow.steps)
    (hreport₁ : ((start o.job event id₁ shared₁).run moves₁).report? = some report₁)
    (hreport₂ : ((start o.job event id₂ shared₂).run moves₂).report? = some report₂)
    (hrun₁ : report₁.runs[position]? = some run₁) (hrun₂ : report₂.runs[position]? = some run₂)
    (hstaged₁ : ∀ message, run₁.status ≠ .failed setupStep (.workspace message))
    (hstaged₂ : ∀ message, run₂.status ≠ .failed setupStep (.workspace message)) :
    run₁.status = run₂.status ∧
      run₁.results.map StepResult.outline = run₂.results.map StepResult.outline := by
  rcases ends_as_foreseen hplan hlinks hinside h₁ hreport₁ hrun₁ with ⟨message, hs⟩ | hends₁
  · exact absurd hs (hstaged₁ message)
  rcases ends_as_foreseen hplan hlinks hinside h₂ hreport₂ hrun₂ with ⟨message, hs⟩ | hends₂
  · exact absurd hs (hstaged₂ message)
  have hboth := hends₁.trans hends₂.symm
  exact ⟨congrArg Prod.snd hboth, congrArg Prod.fst hboth⟩

end

/-- Two plans that install what a manifest lists before they run the tests. -/
def pinnedJob : Job :=
  { workflow :=
      { name := "ci"
        triggers := ["push"]
        matrix := ⟨[⟨"py", ["3.8", "3.9"]⟩], []⟩
        versionAxis := "py"
        cache := ⟨"pins", "/cache", "pip", []⟩
        environment := .empty
        steps := [
          ⟨"install", .installDependencies, .package (.installManifest "pins"), 60⟩,
          ⟨"test", .runTests, .shell "test" [], 60⟩] }
    directory := "/package"
    temporary := "/tmp" }

def pinnedFiles (manifest : Node) : FileSystem :=
  ⟨.directory (.ofList [("tmp", .directory .nil),
    ("package", .directory (.cons "pins" manifest .nil))]), []⟩

def pinnedShared (manifest : Node) (store : CacheStore) : Shared :=
  { scene := ⟨pinnedFiles manifest, false, .epoch⟩, store }

/-- The interpreter is found, and the commands exit with zero. -/
def servingReply : Reply :=
  { Reply.none with
    toolchain := .ready (.ok ⟨"3.8", "python3.8"⟩)
    output := .ready (.ok ⟨some 0, "", ""⟩) }

/-- No interpreter is found, and the store is out of order. -/
def refusingReply : Reply :=
  { Reply.none with
    toolchain := .ready (.error (.timeout "3.9" 30))
    storeFails := true }

/-- The first run is served, and the other one is given some other reply. -/
def pinnedMoves (other : Reply) : List Move :=
  (List.replicate 17 [.turn 0 servingReply, .turn 1 other]).flatten ++ [.join, .join, .join]

def firstStatus (shared : Shared) (other : Reply) : Option RunStatus :=
  (((start pinnedJob "push" .zero shared).run (pinnedMoves other)).report?.bind
    (·.runs[0]?)).map (·.status)

theorem ends_of_firstStatus {shared : Shared} {other : Reply} {status : RunStatus}
    (h : firstStatus shared other = some status) : ∃ report run,
      ((start pinnedJob "push" .zero shared).run (pinnedMoves other)).report? = some report ∧
        report.runs[0]? = some run ∧ run.status = status := by
  simp only [firstStatus, Option.map_eq_some_iff, Option.bind_eq_some_iff] at h
  obtain ⟨run, ⟨report, hreport, hrun⟩, hstatus⟩ := h
  exact ⟨report, run, hreport, hrun, hstatus⟩

def firstOutlines (shared : Shared) : Option (List Outline) :=
  (((start pinnedJob "push" .zero shared).run (pinnedMoves servingReply)).report?.bind
    (·.runs[0]?)).map (·.results.map StepResult.outline)

/-- A store that has an archive of a file under the key of a manifest that does not exist. -/
def filledStore : CacheStore :=
  ⟨.log ⟨[⟨"Linux-pip-0000000000000000", Archive.encode ⟨[⟨"pins", []⟩]⟩, .epoch⟩]⟩, []⟩

/-- A manifest that is a link into the cache directory of the run is there or not, depending on what
the store holds, although everything else is the same. -/
theorem outlines_differ_through_cache :
    firstOutlines (pinnedShared (.link "/cache/py-3-8/pins") .inMemory) =
        some [⟨"install", .installDependencies, .skipped (.manifestMissing "pins"), ""⟩,
          ⟨"test", .runTests, .succeeded, ""⟩] ∧
      firstOutlines (pinnedShared (.link "/cache/py-3-8/pins") filledStore) =
        some [⟨"install", .installDependencies, .succeeded, ""⟩,
          ⟨"test", .runTests, .succeeded, ""⟩] := by
  decide +kernel

def pinnedSite : Site :=
  { source := ["package"]
    entries := .cons "pins" (.file [] false) .nil
    temporary := ["tmp"]
    links := linkLimit
    caches := (["cache"] <+: ·) }

/-- The first run, whose commands leave the workspace as it is. -/
def pinnedOutlook : Outlook :=
  { job := pinnedJob
    plan := ⟨[("py", "3.8")]⟩
    treatment := ⟨.ok ⟨"3.8", "python3.8"⟩, fun _ => .ok ⟨some 0, "", ""⟩, fun _ => pinnedSite.copy⟩
    links := linkLimit
    size := 28 }

/-- Whether the workspace of the first run has a path of the right length, and is as it was staged
while the steps are carried out. -/
def firstIsCopy (e : Execution) : Bool :=
  match e.tasks[0]? with
  | none => true
  | some task =>
    (task.stage.workspace?.all fun workspace => workspace.path.utf8ByteSize == 28) &&
    match task.stage with
    | .stepping setup _ _ =>
      match e.shared.scene.files.root.get? (pinnedSite.home setup.workspace) with
      | some (.directory (.cons "pins" (.file [] false) .nil)) => true
      | _ => false
    | _ => true

theorem resolves_pinned {path name : String} (habs : Path.isAbsolute path = true)
    (hnames : Path.names path = [name]) (hname : IsEntryName name)
    (hd : (pinnedFiles (.file [] false)).root.kindAt [name] = some .directory)
    (hne : "cache" ≠ name) :
    Resolves pinnedSite.caches (pinnedFiles (.file [] false)) path linkLimit [name] := by
  have hstart : (pinnedFiles (.file [] false)).startOf path = [] := by simp [startOf, habs]
  have hnot : ¬pinnedSite.caches [name] := by
    intro (h : ["cache"] <+: [name])
    exact hne (List.cons_prefix_cons.mp h).1
  constructor
  · rw [hstart]
    simp [pinnedSite]
  · rw [hstart, hnames]
    exact .down hname hd (by simp) hnot .done

/-- The places of all jobs with these paths are apart. -/
theorem pinnedSite_holds {job : Job} (hdirectory : job.directory = "/package")
    (htemporary : job.temporary = "/tmp") (hcache : job.workflow.cache.path = "/cache")
    (plans : List Plan) : pinnedSite.Holds job plans (pinnedFiles (.file [] false)) where
  closed := isClosed_below ["cache"]
  tree := ⟨⟨by decide, by decide, by decide, by decide⟩, ⟨by decide, by decide, by decide⟩, rfl,
    trivial, trivial⟩
  source := ⟨linkLimit, hdirectory ▸ resolves_pinned (by decide) (by decide)
    ⟨by decide, by decide, by decide⟩ rfl (by decide)⟩
  source_eq := rfl
  temporary := htemporary ▸ resolves_pinned (by decide) (by decide)
    ⟨by decide, by decide, by decide⟩ rfl (by decide)
  temporary_eq := rfl
  outside := by decide
  caches_source := by simp [pinnedSite]
  caches_workspace := by simp [pinnedSite]
  enters := by
    intro plan _
    rw [CachePolicy.directoryFor, hcache]
    have habs : Path.isAbsolute (Path.join "/cache" plan.slug) = true :=
      Path.isAbsolute_join plan.isName_slug.isAbsolute_eq _
    have hnames : Path.names (Path.join "/cache" plan.slug) = ["cache", plan.slug] :=
      plan.isName_slug.names_join _
    have hstart : (pinnedFiles (.file [] false)).startOf (Path.join "/cache" plan.slug) = [] := by
      simp [startOf, habs]
    refine ⟨[], "cache", by decide, by simp [hstart, pinnedSite], ?_, by decide, List.prefix_rfl⟩
    rw [hstart, hnames]
    exact ⟨[], [plan.slug], linkLimit, rfl, by simp [plan.isName_slug.up.symm], .done⟩
  unlinked := by
    rintro l target ⟨rest, rfl⟩ h
    simp [Node.kindAt, pinnedFiles, Entries.ofList, Node.get?_directory, Entries.find?_cons] at h

theorem mem_pinnedMoves {other : Reply} {move : Move} (h : move ∈ pinnedMoves other) :
    move = .turn 0 servingReply ∨ move = .turn 1 other ∨ move = .join := by
  simp only [pinnedMoves, List.mem_append, List.mem_flatten, List.mem_replicate, List.mem_cons,
    List.not_mem_nil, or_false, or_self] at h
  rcases h with ⟨turns, ⟨-, rfl⟩, hturn⟩ | rfl
  · simp only [List.mem_cons, List.not_mem_nil, or_false] at hturn
    exact hturn.imp_right .inl
  · exact .inr (.inr rfl)

theorem size_of_firstIsCopy {e : Execution} (h : firstIsCopy e) {task : Task}
    (ht : e.tasks[0]? = some task) {workspace : Workspace}
    (hw : task.stage.workspace? = some workspace) : workspace.path.utf8ByteSize = 28 := by
  simp only [firstIsCopy, ht, hw, Bool.and_eq_true, Option.all_some, beq_iff_eq] at h
  exact h.1

theorem get?_of_firstIsCopy {e : Execution} (h : firstIsCopy e) {task : Task}
    (ht : e.tasks[0]? = some task) {setup : Setup} {cache : RestoredCache} {progress : Progress}
    (hs : task.stage = .stepping setup cache progress) :
    e.shared.scene.files.root.get? (pinnedSite.home setup.workspace) = some pinnedSite.copy := by
  simp only [firstIsCopy, ht, hs, Bool.and_eq_true] at h
  have hcopy := h.2
  split at hcopy
  · next hget => exact hget
  · cases hcopy

theorem secludes_pinned {store : CacheStore} {other : Reply}
    (hfiles : ∀ files, other.files files = files) (hcancels : other.cancels = false)
    (hcopy : (pinnedMoves other).inits.all fun done =>
      firstIsCopy ((start pinnedJob "push" .zero (pinnedShared (.file [] false) store)).run done)) :
    Secludes pinnedSite pinnedOutlook "push" 0 .zero (pinnedShared (.file [] false) store)
      (pinnedMoves other) where
  holds := pinnedSite_holds rfl rfl rfl _
  uncancelled := rfl
  allowed := by
    intro done move hp
    have hdone := List.all_eq_true.mp hcopy done
      ((List.mem_inits _ _).mpr ((List.prefix_append _ _).trans hp))
    have hmem : move ∈ pinnedMoves other := hp.subset (by simp)
    rcases mem_pinnedMoves hmem with rfl | rfl | rfl
    · refine ⟨rfl, fun task ht => ⟨fun _ _ => .refl _ _ _, fun _ => ?_⟩⟩
      cases hs : task.stage with
      | provisioning version workspace asked => exact ⟨.inr rfl, rfl⟩
      | stepping setup cache progress =>
          cases progress with
          | busy results step rest handed startedAt =>
              exact .inr ⟨rfl, get?_of_firstIsCopy hdone ht hs⟩
          | _ => exact trivial
      | _ => exact trivial
    · refine ⟨hcancels, fun task ht => ⟨fun _ _ => ?_, fun h => by simp at h⟩⟩
      rw [hfiles]
      exact .refl _ _ _
    · exact trivial
  size := by
    intro done task workspace hp ht hw
    have hdone := List.all_eq_true.mp hcopy done ((List.mem_inits _ _).mpr hp)
    exact size_of_firstIsCopy hdone ht hw

/-- The first run ends in the same way, whether or not there is an interpreter for the other one
and an archive for both. -/
theorem runs_isolated_pinned : ∃ report₁ report₂ run₁ run₂,
    ((start pinnedJob "push" .zero (pinnedShared (.file [] false) .inMemory)).run
      (pinnedMoves servingReply)).report? = some report₁ ∧
    ((start pinnedJob "push" .zero (pinnedShared (.file [] false) filledStore)).run
      (pinnedMoves refusingReply)).report? = some report₂ ∧
    report₁.runs[0]? = some run₁ ∧ report₂.runs[0]? = some run₂ ∧ run₁.status = run₂.status ∧
      run₁.results.map StepResult.outline = run₂.results.map StepResult.outline := by
  have h₁ : Secludes pinnedSite pinnedOutlook "push" 0 .zero
      (pinnedShared (.file [] false) .inMemory) (pinnedMoves servingReply) :=
    secludes_pinned (fun _ => rfl) rfl (by decide +kernel)
  have h₂ : Secludes pinnedSite pinnedOutlook "push" 0 .zero
      (pinnedShared (.file [] false) filledStore) (pinnedMoves refusingReply) :=
    secludes_pinned (fun _ => rfl) rfl (by decide +kernel)
  have hended₁ : firstStatus (pinnedShared (.file [] false) .inMemory) servingReply =
      some .completed := by decide +kernel
  have hended₂ : firstStatus (pinnedShared (.file [] false) filledStore) refusingReply =
      some .completed := by decide +kernel
  obtain ⟨report₁, run₁, hreport₁, hrun₁, hstatus₁⟩ := ends_of_firstStatus hended₁
  obtain ⟨report₂, run₂, hreport₂, hrun₂, hstatus₂⟩ := ends_of_firstStatus hended₂
  have hinside : ∀ toolchain, pinnedOutlook.treatment.toolchain = .ok toolchain →
      pinnedOutlook.staysInside toolchain pinnedSite.copy 0 pinnedJob.workflow.steps := by
    rintro toolchain ⟨⟩
    decide +kernel
  exact ⟨report₁, report₂, run₁, run₂, hreport₁, hreport₂, hrun₁, hrun₂,
    runs_isolated h₁ h₂ (by decide +kernel) rfl hinside hreport₁ hreport₂ hrun₁ hrun₂
      (by simp [hstatus₁]) (by simp [hstatus₂])⟩

end Execution

end BuildMatrix
