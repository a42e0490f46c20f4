import BuildMatrix.CommandLine.Commands
import BuildMatrix.Proofs.Execution.Events
import BuildMatrix.Proofs.Execution.Isolation
import BuildMatrix.Proofs.Execution.ManifestLookup
import BuildMatrix.Proofs.Task.Installation
import BuildMatrix.Proofs.Workflow.Validation

/-!
# Preview, cache key and run agree on the manifest

The preview of a workflow and the cache key of its runs look at the manifest in the package root, a
run installs from the copy in its workspace. The run skips the installation if the preview says so,
and otherwise only if the manifest is looked up through a directory that copies leave out.
-/

namespace BuildMatrix

open FileSystem

theorem CacheKey.toOption_ofManifest_congr {files files' : FileSystem} {path path' : String}
    (h : files.read path = files'.read path') (space : String) :
    (ofManifest files space path).toOption = (ofManifest files' space path').toOption := by
  unfold ofManifest
  rw [h]
  cases files'.read path' with
  | ok contents => rfl
  | error e => cases e <;> rfl

namespace Site

/-- The installation of the manifest in the run of a plan, as it was to be expected before. -/
def installation (site : Site) (job : Job) (plan : Plan) (before : FileSystem) (links index : Nat)
    (step : Step) : Installation :=
  { job, plan, index, step
    manifest := job.workflow.cache.manifest
    found :=
      if site.route links job.workflow.cache.manifest = .prunes then none
      else (before.read (Path.join job.directory job.workflow.cache.manifest)).toOption
    key := (job.workflow.cache.keyFor before job.directory).toOption }

section
variable {site : Site} {job : Job} {plans : List Plan} {plan : Plan} {before files : FileSystem}
  {links index : Nat} {step : Step} {workspace : Workspace}
  (hconsults : site.Consults before links job.workflow.cache.manifest)
  (hreaches : site.Reaches before links job.workflow.cache.manifest job.directory)
  (hne : job.workflow.cache.manifest ≠ "") (hsite : site.Holds job plans before)
  (hkept : site.Kept before files)
include hconsults hreaches hne hsite hkept

theorem toOption_keyFor_later : (job.workflow.cache.keyFor files job.directory).toOption =
    (site.installation job plan before links index step).key :=
  CacheKey.toOption_ofManifest_congr
    (hconsults.read_later hsite hkept hne hreaches hreaches) _

theorem toOption_read_copy (hhouses : site.Houses job before files workspace)
    (hcopy : files.root.get? (site.home workspace) = some site.copy) (hle : links ≤ site.links)
    (hsize : (Path.join workspace.path job.workflow.cache.manifest).utf8ByteSize < pathLimit) :
    (files.read (Path.join workspace.path job.workflow.cache.manifest)).toOption =
      (site.installation job plan before links index step).found := by
  unfold installation
  by_cases hnul : Char.ofNat 0 ∈ job.workflow.cache.manifest.toList
  · rw [read_of_nul (Path.mem_toList_join hnul _), read_of_nul (Path.mem_toList_join hnul _)]
    cases site.route links job.workflow.cache.manifest <;> rfl
  · obtain ⟨-, hlinks⟩ := hconsults.reading_eq hkept
    rw [hconsults.read_copy hsite hkept hhouses hcopy hle hnul hne hsize,
      hreaches.read_eq hnul hne hlinks]
    cases site.route links job.workflow.cache.manifest <;> rfl

end

/-- What may happen in an execution in which each run minds its own. Until a step has had its turn,
nothing touches the workspace of the run at a position. -/
def Permits (site : Site) (index position : Nat) (e : Execution) : Move → Prop
  | .turn turned reply => ∀ task, e.tasks[turned]? = some task →
    (∀ workspace, task.stage.workspace? = some workspace →
      site.Minds workspace e.shared.scene.files (reply.files e.shared.scene.files)) ∧
    (turned = position → ∀ workspace, task.stage.untouched? index = some workspace →
      (reply.files e.shared.scene.files).root.get? (site.home workspace) =
        e.shared.scene.files.root.get? (site.home workspace))
  | _ => True

end Site

namespace Execution

/-- An execution that keeps to its site, in which nothing touches the workspace of the run at a
position until a step has had its turn. The paths in this workspace are not too long. -/
structure Awaits (site : Site) (job : Job) (event : String) (index position : Nat) (id : Ident)
    (shared : Shared) (moves : List Move) : Prop where
  holds : site.Holds job (plansFor job.workflow event) shared.scene.files
  permitted : ∀ done move, done ++ [move] <+: moves →
    site.Permits index position ((start job event id shared).run done) move
  size : ∀ done task workspace, done <+: moves →
    ((start job event id shared).run done).tasks[position]? = some task →
    task.stage.workspace? = some workspace →
    (Path.join workspace.path job.workflow.cache.manifest).utf8ByteSize < pathLimit

/-- The execution keeps to its site, and the run at the position to what was to be expected. -/
structure Watches (site : Site) (i : Installation) (position : Nat) (before : FileSystem)
    (e : Execution) : Prop where
  housed : site.Housed i.job before e.shared.scene.files e.tasks
  meets : ∀ task, e.tasks[position]? = some task →
    i.Meets (fun workspace => e.shared.scene.files.root.get? (site.home workspace) =
      some site.copy) (e.entriesOf position) task.stage

section
variable {site : Site} {job : Job} {plan : Plan} {before : FileSystem} {links index : Nat}
  {step : Step} {event : String} {position : Nat} {e : Execution}

theorem watches_start {i : Installation} {id : Ident} {shared : Shared}
    (hholds : site.Holds i.job (plansFor i.job.workflow event) shared.scene.files) :
    Watches site i position shared.scene.files (start i.job event id shared) := by
  refine ⟨Site.housed_start hholds, fun task ht => ?_⟩
  rw [stage_start ht]
  exact trivial

theorem Watches.frame {i : Installation} {e' : Execution} (h : Watches site i position before e)
    (hfiles : e'.shared.scene.files = e.shared.scene.files) (htasks : e'.tasks = e.tasks)
    (hlog : e.log ⊆ e'.log) : Watches site i position before e' := by
  have hsub : e.entriesOf position ⊆ e'.entriesOf position := by
    intro entry hentry
    rw [mem_entriesOf] at hentry ⊢
    exact hlog hentry
  refine ⟨by rw [hfiles, htasks]; exact h.housed, fun task ht => ?_⟩
  rw [hfiles]
  exact (h.meets task (htasks ▸ ht)).mono (fun _ _ hcopy => hcopy) hsub

section
variable (hstep : (site.installation job plan before links index step).IsStep)
  (hplan : (plansFor job.workflow event)[position]? = some plan)
  (hsite : site.Holds job (plansFor job.workflow event) before)
  (hconsults : site.Consults before links job.workflow.cache.manifest)
  (hreaches : site.Reaches before links job.workflow.cache.manifest job.directory)
  (hne : job.workflow.cache.manifest ≠ "") (hle : links ≤ site.links)
include hstep hplan hsite hconsults hreaches hne hle

theorem meets_turn {tasks : List Task} {task : Task} {reply : Reply} {shared : Shared}
    {entries entries' : List Entry}
    (hhoused : site.Housed job before shared.scene.files tasks)
    (ht : tasks[position]? = some task) (htask : task.plan = plan)
    (hsize : ∀ workspace, task.stage.workspace? = some workspace →
      (Path.join workspace.path job.workflow.cache.manifest).utf8ByteSize < pathLimit)
    (hreply : ∀ workspace, task.stage.untouched? index = some workspace →
      (reply.files shared.scene.files).root.get? (site.home workspace) =
        shared.scene.files.root.get? (site.home workspace))
    (h : (site.installation job plan before links index step).Meets (fun workspace =>
      shared.scene.files.root.get? (site.home workspace) = some site.copy) entries task.stage)
    (hsub : entries ⊆ entries')
    (hnew : ∀ entry ∈ (task.turn job reply shared).entries, entry ∈ entries') :
    (site.installation job plan before links index step).Meets (fun workspace =>
      (task.turn job reply shared).shared.scene.files.root.get? (site.home workspace) =
        some site.copy) entries' (task.turn job reply shared).stage := by
  have hkept := hhoused.kept
  have hhouses := hhoused.houses position task
  refine Installation.meets_turn hstep (fun files workspace =>
    files.root.get? (site.home workspace) = some site.copy) htask ?_ ?_ ?_ ?_ ?_ h hsub hnew
  · intro workspace hw hcopy
    exact Site.toOption_read_copy hconsults hreaches hne hsite hkept (hhouses workspace ht hw) hcopy
      hle (hsize workspace hw)
  · exact Site.toOption_keyFor_later hconsults hreaches hne hsite hkept
  · intro files workspace hs
    exact hsite.get?_staged hkept hs
  · intro found workspace hw hcopy
    have hmem := List.mem_of_getElem? hplan
    exact ((hhouses workspace ht hw).get?_restored hsite hkept hmem found).trans hcopy
  · intro workspace hw hcopy
    exact (hreply workspace hw).trans hcopy

theorem Watches.turn (h : Watches site (site.installation job plan before links index step) position
      before e)
    (hjob : e.job = job) (hplans : e.tasks.map (·.plan) = plansFor job.workflow event)
    (hsize : ∀ task workspace, e.tasks[position]? = some task →
      task.stage.workspace? = some workspace →
      (Path.join workspace.path job.workflow.cache.manifest).utf8ByteSize < pathLimit)
    {turned : Nat} {reply : Reply}
    (hpermitted : site.Permits index position e (.turn turned reply)) :
    Watches site (site.installation job plan before links index step) position before
      (e.turn turned reply) := by
  cases ht : e.tasks[turned]? with
  | none => rwa [turn_eq_self ht]
  | some task =>
    obtain ⟨hminds, hreply⟩ := hpermitted task ht
    have htask : (plansFor job.workflow event)[turned]? = some task.plan := by
      rw [← hplans, List.getElem?_map, ht]
      rfl
    have htouch := Task.touches_turn job reply e.shared task
    have hpasses := h.housed.turn hsite ht (List.mem_of_getElem? htask) htouch hminds
    have hsub (other : Nat) : e.entriesOf other ⊆ (e.turn turned reply).entriesOf other := by
      intro entry hentry
      rw [mem_entriesOf] at hentry ⊢
      rw [turn_eq ht]
      exact List.mem_append_left _ hentry
    have hnew (entry : Entry) (hentry : entry ∈ (task.turn job reply e.shared).entries) :
        entry ∈ (e.turn turned reply).entriesOf turned := by
      rw [mem_entriesOf, turn_eq ht, hjob]
      exact List.mem_append_right _ (List.mem_map_of_mem hentry)
    rw [turn_eq ht, hjob] at hsub hnew ⊢
    refine ⟨hpasses.housed task, fun task' ht' => ?_⟩
    obtain ⟨rfl, rfl⟩ | ⟨hother, ht'⟩ := tasks_set_cases ht'
    · have hown : task.plan = plan := Option.some.inj (htask.symm.trans hplan)
      exact meets_turn hstep hplan hsite hconsults hreaches hne hle h.housed ht hown
        (hsize task · ht) (hreply rfl) (h.meets task ht) (hsub turned) hnew
    · -- Another run has had its turn, and spares this workspace.
      exact (h.meets task' ht').mono
        (fun workspace hw =>
          (hpasses.spares position task' workspace (Ne.symm hother) ht' hw).trans) (hsub position)

theorem Watches.move (h : Watches site (site.installation job plan before links index step) position
      before e)
    (hjob : e.job = job) (hplans : e.tasks.map (·.plan) = plansFor job.workflow event)
    (hsize : ∀ task workspace, e.tasks[position]? = some task →
      task.stage.workspace? = some workspace →
      (Path.join workspace.path job.workflow.cache.manifest).utf8ByteSize < pathLimit)
    {move : Move} (hpermitted : site.Permits index position e move) :
    Watches site (site.installation job plan before links index step) position before
      (e.move move) := by
  cases move with
  | cancel => exact h.frame rfl rfl (List.Subset.refl _)
  | tick now => exact h.frame rfl rfl (List.Subset.refl _)
  | turn turned reply =>
    exact h.turn hstep hplan hsite hconsults hreaches hne hle hjob hplans hsize hpermitted
  | join =>
    have hj := e.joins_join
    simp only [Execution.move]
    generalize e.join = next at hj ⊢
    cases hj <;> exact h.frame rfl rfl (by simp)

/-- The result of the step, if the run has one, and the key of the run are as was to be expected. -/
theorem judges_installation {id : Ident} {shared : Shared} {moves : List Move} {report : Report}
    {run : Run} {result : StepResult} (h : Awaits site job event index position id shared moves)
    (hbefore : shared.scene.files = before)
    (hreport : ((start job event id shared).run moves).report? = some report)
    (hrun : report.runs[position]? = some run) (hresult : run.results[index]? = some result) :
    run.cacheKey =
        (site.installation job plan before links index step).key.map CacheKey.render ∧
      (site.installation job plan before links index step).Judges
        (((start job event id shared).run moves).entriesOf position) result := by
  have hwatches : Watches site (site.installation job plan before links index step) position before
      ((start job event id shared).run moves) := by
    subst hbefore
    refine run_induction (watches_start h.holds) fun done move hp hdone => ?_
    refine hdone.move hstep hplan hsite hconsults hreaches hne hle (job_run _ done)
      (plans_run job event id shared done) (fun task workspace => ?_) (h.permitted done move hp)
    exact h.size done task workspace ((List.prefix_append _ _).trans hp)
  have hjoined := joined_run (joined_start job event id shared) moves
  obtain ⟨hruns, -, -⟩ := report_runs hjoined hreport
  rw [hruns] at hrun
  obtain ⟨task, ht, hof⟩ := hjoined.runs position run hrun
  have hmeets := hwatches.meets task ht
  cases hof with
  | finished run hs =>
    rw [hs] at hmeets
    exact hmeets result hresult
  | aborted message now hs => simp [abortedRun] at hresult

end

end

end Execution

/-- What the preview shows for a package root, the cache key of a run and the result of the step
that installs the manifest agree. -/
structure ManifestAgreement (site : Site) (job : Job) (plan : Plan) (before : FileSystem)
    (workdir : String) (links : Nat) (step : Step) (entries : List Entry) (run : Run)
    (result : StepResult) : Prop where
  name : result.step = step.name
  preview : step.skipReason? before (CommandLine.previewContext job.workflow workdir plan) =
      some (.manifestMissing job.workflow.cache.manifest) ↔
    before.isFile (Path.join workdir job.workflow.cache.manifest) = false
  skipped : result.outcome = .skipped (.manifestMissing job.workflow.cache.manifest) ↔
    step.skipReason? before (CommandLine.previewContext job.workflow workdir plan) =
        some (.manifestMissing job.workflow.cache.manifest) ∨
      site.route links job.workflow.cache.manifest = .prunes
  key : run.cacheKey =
    (job.workflow.cache.keyFor before workdir).toOption.map CacheKey.render
  installs : ∀ contents,
    before.read (Path.join workdir job.workflow.cache.manifest) = .ok contents →
    run.cacheKey = some (CacheKey.ofBytes job.workflow.cache.space contents).render ∧
      (site.route links job.workflow.cache.manifest ≠ .prunes →
        (∀ reason, result.outcome ≠ .skipped reason) ∧
        ∃ setup files, Entry.handed (step.command (Task.context job plan setup)) files ∈ entries ∧
          files.read (Path.join setup.workspace.path job.workflow.cache.manifest) = .ok contents)

namespace Execution

theorem isStep_installation {config : WorkflowConfig} {home : String} {job : Job}
    (hload : config.toWorkflow home = .ok job.workflow) (site : Site) (plan : Plan)
    (before : FileSystem) (links : Nat) :
    job.workflow.cache.manifest ≠ "" ∧
    ∃ step, job.workflow.step? "install-requirements" = some step ∧
      (site.installation job plan before links 1 step).IsStep := by
  obtain ⟨-, axes, exclusions, filter, hreads, -, -, hcache, hsteps⟩ :=
    WorkflowConfig.reads_of_toWorkflow hload
  have hmanifest : job.workflow.cache.manifest = config.cache.manifest := by
    rw [hcache]
    rfl
  constructor
  · rw [hmanifest]
    intro he
    have hblank := hreads.manifest
    rw [he] at hblank
    exact absurd hblank (by decide)
  · refine ⟨⟨"install-requirements", .installDependencies,
      .package (.installManifest job.workflow.cache.manifest), config.stepTimeoutSeconds⟩, ?_, ?_⟩
    · rw [Workflow.step?, hsteps, hmanifest]
      rfl
    · constructor
      · rw [hmanifest]
        simp only [Site.installation, hsteps]
        rfl
      · rfl

/-- A run skips the step that installs the manifest exactly if the preview says so or the manifest
is looked up through a directory that copies leave out. Otherwise it installs from a manifest with
the contents from which its cache key is derived. -/
theorem manifest_agreement {config : WorkflowConfig} {home workdir event : String} {job : Job}
    {site : Site} {links position : Nat} {plan : Plan} {id : Ident} {shared : Shared}
    {moves : List Move} {report : Report} {run : Run} {result : StepResult}
    (hload : config.toWorkflow home = .ok job.workflow)
    (hplan : (plansFor job.workflow event)[position]? = some plan)
    (h : Awaits site job event 1 position id shared moves)
    (hconsults : site.Consults shared.scene.files links job.workflow.cache.manifest)
    (hdirectory : site.Reaches shared.scene.files links job.workflow.cache.manifest job.directory)
    (hworkdir : site.Reaches shared.scene.files links job.workflow.cache.manifest workdir)
    (hle : links ≤ site.links)
    (hreport : ((start job event id shared).run moves).report? = some report)
    (hrun : report.runs[position]? = some run) (hresult : run.results[1]? = some result)
    (hcancelled : result.outcome ≠ .cancelled) :
    ∃ step, job.workflow.step? "install-requirements" = some step ∧
      ManifestAgreement site job plan shared.scene.files workdir links step
        (((start job event id shared).run moves).entriesOf position) run result := by
  obtain ⟨hne, step, hnamed, hstep⟩ :=
    isStep_installation hload site plan shared.scene.files links
  obtain ⟨hkey, hjudges⟩ := judges_installation hstep hplan h.holds hconsults hdirectory hne hle h
    rfl hreport hrun hresult
  have hdecided := hjudges.outcome hcancelled
  have hkept : site.Kept shared.scene.files shared.scene.files := ⟨.refl _ _, h.holds.unlinked⟩
  have hread := hconsults.read_later h.holds hkept hne hworkdir hdirectory
  have hkeys : run.cacheKey =
      (job.workflow.cache.keyFor shared.scene.files workdir).toOption.map CacheKey.render := by
    rw [hkey]
    exact congrArg _ (CacheKey.toOption_ofManifest_congr hread _)
  have hpreview : step.skipReason? shared.scene.files
        (CommandLine.previewContext job.workflow workdir plan) =
      if shared.scene.files.isFile (Path.join workdir job.workflow.cache.manifest) then none
      else some (.manifestMissing job.workflow.cache.manifest) := by
    have haction : step.action = .package (.installManifest job.workflow.cache.manifest) :=
      hstep.action
    rw [Step.skipReason?, haction]
    rfl
  have hfile := isFile_iff_read shared.scene.files
    (Path.join workdir job.workflow.cache.manifest)
  rw [Site.installation, hread] at hdecided
  refine ⟨step, hnamed, hjudges.step, ?_, ?_, hkeys, ?_⟩
  · rw [hpreview]
    cases shared.scene.files.isFile (Path.join workdir job.workflow.cache.manifest) <;> simp
  · rw [hpreview]
    by_cases hroute : site.route links job.workflow.cache.manifest = .prunes
    · simp only [hroute, if_true] at hdecided
      exact ⟨fun _ => .inr hroute, fun _ => hdecided⟩
    simp only [hroute, if_false, or_false] at hdecided ⊢
    cases hr : shared.scene.files.read (Path.join workdir job.workflow.cache.manifest) with
    | error e =>
      rw [hr] at hdecided
      have hnot : ¬shared.scene.files.isFile (Path.join workdir job.workflow.cache.manifest) := by
        simp [hfile, hr]
      rw [if_neg hnot]
      exact ⟨fun _ => rfl, fun _ => hdecided⟩
    | ok contents =>
      rw [hr] at hdecided
      rw [if_pos (hfile.mpr ⟨contents, hr⟩)]
      exact ⟨fun hs => absurd hs (hdecided.1 _), fun hs => absurd hs (by simp)⟩
  · intro contents hr
    constructor
    · rw [hkeys, CachePolicy.keyFor, CacheKey.ofManifest, CachePolicy.manifestIn, hr]
      rfl
    · intro hroute
      simp only [hroute, if_false, hr] at hdecided
      exact hdecided

def manifestConfig (manifest : String) : WorkflowConfig :=
  { matrix := [(.string "python-version", .sequence [.string "3.8"])]
    cache := { manifest, path := "/cache" } }

def manifestJob (manifest : String) : Job :=
  { workflow := ((manifestConfig manifest).toWorkflow "/home").toOption.getD pinnedJob.workflow
    directory := "/package"
    temporary := "/tmp" }

def manifestMoves : List Move := List.replicate 23 (.turn 0 servingReply) ++ [.join, .join]

def manifestRun? (manifest : String) (shared : Shared) (moves : List Move) :
    Option (Run × StepResult) := do
  let report ← ((start (manifestJob manifest) "push" .zero shared).run moves).report?
  let run ← report.runs[0]?
  let result ← run.results[1]?
  return (run, result)

/-- Why the preview skips the step, if it does, and how the step ends. -/
def previewAndOutcome (manifest workdir : String) (shared : Shared) (moves : List Move) :
    Option (Option SkipReason × StepOutcome) := do
  let workflow ← ((manifestConfig manifest).toWorkflow "/home").toOption
  let step ← workflow.step? "install-requirements"
  let (run, result) ← manifestRun? manifest shared moves
  return (step.skipReason? shared.scene.files
    (CommandLine.previewContext workflow workdir run.plan), result.outcome)

/-- A package root beside other files, in a host where nothing is cached. -/
def hostWith (package others : List (String × Node)) : Shared :=
  { scene := ⟨⟨.directory (.ofList (("tmp", .directory .nil) ::
      ("package", .directory (.ofList package)) :: others)), []⟩, false, .epoch⟩
    store := .inMemory }

/-- A path to the package root through as many links as there may be. -/
def windingPath : String :=
  String.ofList ('/' :: (List.replicate linkLimit ['l', '/']).flatten) ++ "package"

/-- The preview and the run disagree on a manifest in a directory that copies leave out, above the
package root, or where the run restores its cache, and if the way to the package root leaves no
link. A step that is cancelled is not skipped. -/
theorem previewAndOutcome_disagree :
    previewAndOutcome "build/pins" "/package"
        (hostWith [("build", .directory (.cons "pins" (.file [] false) .nil))] [])
        manifestMoves =
      some (none, .skipped (.manifestMissing "build/pins")) ∧
    previewAndOutcome "../pins" "/package" (hostWith [] [("pins", .file [] false)])
        manifestMoves =
      some (none, .skipped (.manifestMissing "../pins")) ∧
    previewAndOutcome "pins" "/package"
        { hostWith [("pins", .link "/cache/python-version-3-8/pins")] [] with store := filledStore }
        manifestMoves =
      some (some (.manifestMissing "pins"), .succeeded) ∧
    previewAndOutcome "pins" windingPath
        (hostWith [("pins", .link "list"), ("list", .file [] false)] [("l", .link "/")])
        manifestMoves =
      some (some (.manifestMissing "pins"), .succeeded) ∧
    previewAndOutcome "pins" "/package" (hostWith [] [])
        (List.replicate 12 (.turn 0 servingReply) ++ .cancel :: manifestMoves) =
      some (some (.manifestMissing "pins"), .cancelled) := by
  decide +kernel

/-- Whether the workspace of the first run leaves the manifest enough bytes. -/
def firstHasRoom (manifest : String) (e : Execution) : Bool :=
  match e.tasks[0]? with
  | none => true
  | some task => task.stage.workspace?.all fun workspace =>
    decide ((Path.join workspace.path manifest).utf8ByteSize < pathLimit)

theorem size_of_firstHasRoom {manifest : String} {e : Execution} (h : firstHasRoom manifest e)
    {task : Task} (ht : e.tasks[0]? = some task) {workspace : Workspace}
    (hw : task.stage.workspace? = some workspace) :
    (Path.join workspace.path manifest).utf8ByteSize < pathLimit := by
  simpa [firstHasRoom, ht, hw] using h

theorem awaits_manifestJob (hmanifest : (manifestJob "pins").workflow.cache.manifest = "pins")
    (hcache : (manifestJob "pins").workflow.cache.path = "/cache")
    (hroom : manifestMoves.inits.all fun done => firstHasRoom "pins"
      ((start (manifestJob "pins") "push" .zero (pinnedShared (.file [] false) .inMemory)).run
        done)) :
    Awaits pinnedSite (manifestJob "pins") "push" 1 0 .zero
      (pinnedShared (.file [] false) .inMemory) manifestMoves where
  holds := pinnedSite_holds rfl rfl hcache _
  permitted := by
    intro done move hp
    have hmem : move ∈ manifestMoves := hp.subset (by simp)
    simp only [manifestMoves, List.mem_append, List.mem_replicate, List.mem_cons,
      List.not_mem_nil, or_false, or_self] at hmem
    rcases hmem with ⟨-, rfl⟩ | rfl
    · exact fun task _ => ⟨fun _ _ => .refl _ _ _, fun _ _ _ => rfl⟩
    · exact trivial
  size := by
    intro done task workspace hp ht hw
    rw [hmanifest]
    exact size_of_firstHasRoom (List.all_eq_true.mp hroom done ((List.mem_inits _ _).mpr hp)) ht hw

theorem exists_of_manifestRun? {manifest : String} {shared : Shared} {moves : List Move}
    {outcome : StepOutcome}
    (h : (manifestRun? manifest shared moves).map (·.2.outcome) = some outcome) :
    ∃ report run result,
      ((start (manifestJob manifest) "push" .zero shared).run moves).report? = some report ∧
        report.runs[0]? = some run ∧ run.results[1]? = some result ∧ result.outcome = outcome := by
  simp only [manifestRun?, Option.map_eq_some_iff, Option.bind_eq_bind, Option.bind_eq_some_iff,
    Option.pure_def, Option.some.injEq] at h
  obtain ⟨⟨run, result⟩, ⟨report, hreport, run', hrun, result', hresult, heq⟩, houtcome⟩ := h
  cases heq
  exact ⟨report, run, result, hreport, hrun, hresult, houtcome⟩

theorem reaches_pinned : pinnedSite.Reaches (pinnedFiles (.file [] false)) linkLimit "pins"
    "/package" where
  nul := by decide
  size := by decide
  resolves := ⟨linkLimit, Nat.le_refl _, (resolves_pinned (by decide) (by decide)
    ⟨by decide, by decide, by decide⟩ rfl (by decide)).mono fun _ => False.elim⟩

/-- A manifest in the package root is installed from, and the cache key carries its digest. -/
theorem manifest_agreement_pinned : ∃ report run result step,
    ((start (manifestJob "pins") "push" .zero (pinnedShared (.file [] false) .inMemory)).run
      manifestMoves).report? = some report ∧
    report.runs[0]? = some run ∧ run.results[1]? = some result ∧
    (manifestJob "pins").workflow.step? "install-requirements" = some step ∧
    ManifestAgreement pinnedSite (manifestJob "pins") ⟨[("python-version", "3.8")]⟩
      (pinnedFiles (.file [] false)) "/package" linkLimit step
      (((start (manifestJob "pins") "push" .zero (pinnedShared (.file [] false) .inMemory)).run
        manifestMoves).entriesOf 0) run result := by
  have hload : (manifestConfig "pins").toWorkflow "/home" = .ok (manifestJob "pins").workflow := by
    decide +kernel
  have hplan : (plansFor (manifestJob "pins").workflow "push")[0]? =
      some ⟨[("python-version", "3.8")]⟩ := by decide +kernel
  have hmanifest : (manifestJob "pins").workflow.cache.manifest = "pins" := by decide +kernel
  have hcache : (manifestJob "pins").workflow.cache.path = "/cache" := by decide +kernel
  have hended : (manifestRun? "pins" (pinnedShared (.file [] false) .inMemory) manifestMoves).map
      (·.2.outcome) = some .succeeded := by decide +kernel
  obtain ⟨report, run, result, hreport, hrun, hresult, houtcome⟩ := exists_of_manifestRun? hended
  have hawaits := awaits_manifestJob hmanifest hcache (by decide +kernel)
  have hconsults : pinnedSite.Consults (pinnedFiles (.file [] false)) linkLimit "pins" := by
    refine hawaits.holds.consults (by decide) (by decide +kernel) ?_
    have hwalk : walk (.directory pinnedSite.entries) true linkLimit [] (Path.names "pins") =
        .ok (.present ["pins"] (.file [] false)) := by rfl
    rw [hwalk]
    simp
  obtain ⟨step, hnamed, hagrees⟩ := manifest_agreement hload hplan hawaits (hmanifest ▸ hconsults)
    (hmanifest ▸ reaches_pinned) (hmanifest ▸ reaches_pinned) (Nat.le_refl linkLimit) hreport hrun
    hresult (by simp [houtcome])
  exact ⟨report, run, result, step, hreport, hrun, hresult, hnamed, hagrees⟩

end Execution

end BuildMatrix
