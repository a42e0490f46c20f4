import BuildMatrix.Proofs.Cache.Restore
import BuildMatrix.Proofs.Execution.Run
import BuildMatrix.Proofs.Task.Files
import BuildMatrix.Proofs.Workspace.Manifest
import BuildMatrix.Proofs.Workspace.Stage

/-!
# Where an execution has its files

The package root, the directory of the workspaces and the caches lie apart. As long as each run
leaves what is not its own alone, the package root stays as it was, and each run that has a
workspace has a directory that no other run has.
-/

namespace BuildMatrix

open FileSystem

/-- Where an execution has its files. -/
structure Site where
  /-- The package root, and what it holds. -/
  source : Location
  entries : Entries
  /-- The directory of the workspaces, and how many links a path through it may still pass. -/
  temporary : Location
  links : Nat
  /-- What is in the cache directories of the plans. -/
  caches : Location → Prop

namespace Site

/-- The places are as the site says, and apart from each other. -/
structure Holds (site : Site) (job : Job) (plans : List Plan) (files : FileSystem) : Prop where
  closed : IsClosed site.caches
  tree : site.entries.IsTree
  source : ∃ links, Resolves site.caches files job.directory links site.source
  source_eq : files.root.get? site.source = some (.directory site.entries)
  temporary : Resolves site.caches files job.temporary site.links site.temporary
  temporary_eq : files.root.kindAt site.temporary = some .directory
  outside : ¬site.source <+: site.temporary
  caches_source : ∀ rest, ¬site.caches (site.source ++ rest)
  caches_workspace : ∀ plan n rest,
    ¬site.caches (site.temporary ++ Workspace.nameOf plan n :: rest)
  enters : ∀ plan ∈ plans, ∃ base first, files.root.kindAt base ≠ none ∧
    Enters site.caches files (job.workflow.cache.directoryFor plan) base first
  unlinked : Unlinked site.caches files

def IsNew (site : Site) (before : FileSystem) (location : Location) : Prop :=
  ∃ name, site.temporary ++ [name] <+: location ∧
    before.root.kindAt (site.temporary ++ [name]) = none

def Changes (site : Site) (before : FileSystem) (location : Location) : Prop :=
  site.caches location ∨ site.IsNew before location

def home (site : Site) (workspace : Workspace) : Location :=
  site.temporary ++ (Path.names workspace.path).getLast?.toList

/-- A workspace at a place of its own, where nothing was before the execution. -/
inductive Houses (site : Site) (job : Job) (before files : FileSystem) : Workspace → Prop
  | intro (plan : Plan) (n : Nat) : IsEntryName (Workspace.nameOf plan n) →
      IsUsable (Path.join job.temporary (Workspace.nameOf plan n)) →
      before.root.kindAt (site.temporary ++ [Workspace.nameOf plan n]) = none →
      files.root.kindAt (site.temporary ++ [Workspace.nameOf plan n]) = some .directory →
      Houses site job before files ⟨Path.join job.temporary (Workspace.nameOf plan n)⟩

/-- What an execution has left of the files. -/
structure Kept (site : Site) (before files : FileSystem) : Prop where
  changes : Confined (site.Changes before) before files
  unlinked : Unlinked site.caches files

section
variable {site : Site} {job : Job} {plans : List Plan} {before files : FileSystem}

theorem home_eq (temporary : String) (plan : Plan) (n : Nat) :
    site.home ⟨Path.join temporary (Workspace.nameOf plan n)⟩ =
      site.temporary ++ [Workspace.nameOf plan n] := by
  simp [home, (Workspace.isName_nameOf plan n).names_join]

theorem isClosed_changes (hclosed : IsClosed site.caches) (before : FileSystem) :
    IsClosed (site.Changes before) := by
  rintro l l' (h | ⟨name, hp, hnone⟩) hl
  · exact .inl (hclosed l l' h hl)
  · exact .inr ⟨name, hp.trans hl, hnone⟩

theorem IsNew.absent {location : Location} (h : site.IsNew before location) :
    before.root.kindAt location = none := by
  obtain ⟨name, ⟨rest, rfl⟩, hnone⟩ := h
  have hget : before.root.get? (site.temporary ++ [name]) = none := by
    simpa [Node.kindAt] using hnone
  rw [Node.kindAt, Node.get?_append, hget]
  rfl

namespace Holds

variable (h : site.Holds job plans before)
include h

theorem not_changes_source (rest : Location) : ¬site.Changes before (site.source ++ rest) := by
  rintro (hc | ⟨name, hp, hnone⟩)
  · exact h.caches_source rest hc
  · rcases List.prefix_or_prefix_of_prefix hp (List.prefix_append site.source rest) with hs | hs
    · have habsent := IsNew.absent ⟨name, hs, hnone⟩
      simp [Node.kindAt, h.source_eq] at habsent
    · rcases List.prefix_concat_iff.mp hs with hs | hs
      · rw [← hs, Node.kindAt, h.source_eq] at hnone
        cases hnone
      · exact h.outside hs

variable (hkept : site.Kept before files)
include hkept

theorem source_get? : files.root.get? site.source = some (.directory site.entries) := by
  rw [hkept.changes.get?_eq _ h.not_changes_source, h.source_eq]

theorem resolves_later {path : String} {links : Nat}
    (hs : Resolves site.caches before path links site.source) :
    Resolves (site.Changes before) files path links site.source := by
  refine Resolves.frame ?_ (isClosed_changes h.closed before) hkept.changes
  exact hs.avoid_absent (by simp [Node.kindAt, h.source_eq]) fun _ => IsNew.absent

theorem source_resolves : ∃ links, Resolves (site.Changes before) files job.directory links
    site.source := by
  obtain ⟨links, hs⟩ := h.source
  exact ⟨links, h.resolves_later hkept hs⟩

theorem temporary_resolves : Resolves (site.Changes before) files job.temporary site.links
    site.temporary := by
  refine Resolves.frame ?_ (isClosed_changes h.closed before) hkept.changes
  exact h.temporary.avoid_absent (by simp [h.temporary_eq]) fun _ => IsNew.absent

theorem enters_later {plan : Plan} (hplan : plan ∈ plans) : ∃ base first,
    Enters site.caches files (job.workflow.cache.directoryFor plan) base first := by
  obtain ⟨base, first, hbase, henters⟩ := h.enters plan hplan
  obtain ⟨front, rest, links, hnames, hup, hleads⟩ := henters.leads
  refine ⟨base, first, ?_, ⟨front, rest, links, hnames, hup, ?_⟩, henters.name, henters.inside⟩
  · rw [hkept.changes.startOf_eq]
    exact henters.start
  · have hresolves : ¬site.Changes before
        (before.startOf (job.workflow.cache.directoryFor plan)) := by
      rintro (hc | hnew)
      · exact henters.start hc
      · exact hleads.start_present hbase hnew.absent
    rw [hkept.changes.startOf_eq]
    exact ((hleads.avoid_absent fun _ => IsNew.absent).frame (isClosed_changes h.closed before)
      hkept.changes.kindAt_eq hresolves).1.mono fun _ => .inl

theorem missing_before {plan : Plan} {n : Nat}
    (hnone : files.root.kindAt (site.temporary ++ [Workspace.nameOf plan n]) = none) :
    before.root.kindAt (site.temporary ++ [Workspace.nameOf plan n]) = none := by
  by_contra hsome
  apply hsome
  rw [← hkept.changes.kindAt_eq, hnone]
  rintro (hc | hnew)
  · exact h.caches_workspace plan n [] hc
  · exact hsome hnew.absent

theorem stages (plan : Plan) : Workspace.Stages plan job.temporary site.temporary site.entries files
    (Workspace.stage files job.temporary job.directory plan) := by
  obtain ⟨links, hsource⟩ := h.source_resolves hkept
  exact Workspace.stage_spec (h.temporary_resolves hkept) hsource (h.source_get? hkept) h.tree
    h.outside plan

end Holds

end

/-- What the host may do for a run: something in its workspace and in the caches. -/
structure Minds (site : Site) (workspace : Workspace) (files files' : FileSystem) : Prop where
  confined : Confined (fun l => site.caches l ∨ Under (site.home workspace) l) files files'
  unlinked : Unlinked site.caches files → Unlinked site.caches files'

theorem Minds.refl (site : Site) (workspace : Workspace) (files : FileSystem) :
    site.Minds workspace files files :=
  ⟨.refl _ _, id⟩

/-- Each run that has a workspace has a directory of its own. -/
structure Housed (site : Site) (job : Job) (before files : FileSystem) (tasks : List Task) :
    Prop where
  kept : site.Kept before files
  houses : ∀ (position : Nat) (task : Task) (workspace : Workspace), tasks[position]? = some task →
    task.stage.workspace? = some workspace → site.Houses job before files workspace
  distinct : ∀ (i j : Nat) (task task' : Task) (workspace workspace' : Workspace), i ≠ j →
    tasks[i]? = some task → tasks[j]? = some task' → task.stage.workspace? = some workspace →
    task'.stage.workspace? = some workspace' → site.home workspace ≠ site.home workspace'

section
variable {site : Site} {job : Job} {plans : List Plan} {before files files' : FileSystem}
  {workspace workspace' : Workspace} {region : Location → Prop}

theorem Houses.frame (h : site.Houses job before files workspace)
    (hc : Confined region files files') (hr : ¬region (site.home workspace)) :
    site.Houses job before files' workspace := by
  obtain ⟨plan, n, hname, hu, hnew, hd⟩ := h
  rw [home_eq] at hr
  exact ⟨plan, n, hname, hu, hnew, by rw [hc.kindAt_eq _ hr, hd]⟩

theorem Houses.isNew (h : site.Houses job before files workspace) {location : Location}
    (hp : site.home workspace <+: location) : site.IsNew before location := by
  obtain ⟨plan, n, -, -, hnew, -⟩ := h
  rw [home_eq] at hp
  exact ⟨_, hp, hnew⟩

theorem Houses.not_caches (h : site.Houses job before files workspace)
    (hsite : site.Holds job plans before) (rest : Location) :
    ¬site.caches (site.home workspace ++ rest) := by
  obtain ⟨plan, n, -, -, -, -⟩ := h
  rw [home_eq, List.append_assoc]
  exact hsite.caches_workspace plan n rest

theorem Houses.not_below (h : site.Houses job before files workspace)
    (h' : site.Houses job before files workspace')
    (hne : site.home workspace ≠ site.home workspace') (rest : Location) :
    ¬site.home workspace <+: site.home workspace' ++ rest := by
  obtain ⟨plan, n, -, -, -, -⟩ := h
  obtain ⟨plan', n', -, -, -, -⟩ := h'
  simp only [home_eq] at hne ⊢
  intro hp
  rw [List.append_assoc, List.prefix_append_right_inj] at hp
  exact hne (congrArg (fun name => site.temporary ++ [name]) (List.cons_prefix_cons.mp hp).1)

theorem Houses.resolves (h : site.Houses job before files workspace)
    (hsite : site.Holds job plans before) (hkept : site.Kept before files) :
    Resolves (Under (site.home workspace)) files workspace.path site.links (site.home workspace) ∧
      IsUsable workspace.path ∧ Path.endsInSlash workspace.path = false := by
  have hin : ∀ l, Under (site.home workspace) l → site.Changes before l :=
    fun l hl => .inr (h.isNew hl.1)
  have htemporary := (hsite.temporary_resolves hkept).mono hin
  obtain ⟨plan, n, hname, hu, -, hd⟩ := h
  have hn := Workspace.isName_nameOf plan n
  rw [home_eq] at htemporary ⊢
  simp only
  exact ⟨htemporary.join hn hname hd (by simp [Under]), hu, hn.endsInSlash_join _⟩

/-- A look-up in a workspace that does not leave it. -/
theorem Houses.isFile_join (h : site.Houses job before files workspace)
    (hsite : site.Holds job plans before) (hkept : site.Kept before files) {tree : Node}
    (htree : files.root.get? (site.home workspace) = some tree) {path : String}
    (hrel : Path.isAbsolute path = false)
    (hinside : staysInside tree site.links [] (Path.names path)) :
    files.isFile (Path.join workspace.path path) =
      Workspace.hasFile site.links workspace.path.utf8ByteSize tree path := by
  have hd : files.root.kindAt (site.home workspace) = some .directory := by
    obtain ⟨plan, n, -, -, -, hd⟩ := h
    rwa [home_eq]
  obtain ⟨entries, hentries⟩ := get?_of_kindAt hd
  obtain rfl : .directory entries = tree := Option.some.inj (hentries.symm.trans htree)
  obtain ⟨hresolves, hu, hslash⟩ := h.resolves hsite hkept
  exact FileSystem.isFile_join hresolves hentries hu hslash hrel hinside

/-- A workspace is staged with a copy of the package root. -/
theorem Holds.get?_staged (hsite : site.Holds job plans before) (hkept : site.Kept before files)
    {plan : Plan}
    (hs : Workspace.stage files job.temporary job.directory plan = (files', .ok workspace)) :
    files'.root.get? (site.home workspace) =
      some (.directory (Workspace.pruned site.entries)) := by
  have hstages := hsite.stages hkept plan
  rw [hs] at hstages
  obtain ⟨n, hpath, hget⟩ := hstages.of_ok rfl
  rwa [← home_eq job.temporary, ← hpath] at hget

theorem Houses.get?_restored (h : site.Houses job before files workspace)
    (hsite : site.Holds job plans before) (hkept : site.Kept before files) {plan : Plan}
    (hplan : plan ∈ plans) (found : Resolution) :
    (found.restore files (job.workflow.cache.directoryFor plan)).1.root.get?
        (site.home workspace) = files.root.get? (site.home workspace) := by
  obtain ⟨base, first, henters⟩ := hsite.enters_later hkept hplan
  have hgrows := Resolution.grows_restore hsite.closed henters hkept.unlinked found
  exact hgrows.confined.get?_eq _ (h.not_caches hsite)

theorem Houses.not_missing (h : site.Houses job before files workspace) {plan : Plan} {n : Nat}
    (hnone : files.root.kindAt (site.temporary ++ [Workspace.nameOf plan n]) = none)
    (rest : Location) :
    ¬site.temporary ++ [Workspace.nameOf plan n] <+: site.home workspace ++ rest := by
  obtain ⟨plan', n', -, -, -, hd⟩ := h
  rw [home_eq]
  intro hp
  rw [List.append_assoc, List.prefix_append_right_inj] at hp
  rw [(List.cons_prefix_cons.mp hp).1, hd] at hnone
  cases hnone

variable {tasks : List Task} {position : Nat} {task : Task} {stage : Stage}

/-- After a turn each run still has a directory of its own, and the workspaces of the other runs are
as they were. -/
structure Passes (site : Site) (job : Job) (before : FileSystem) (tasks : List Task)
    (position : Nat) (stage : Stage) (files files' : FileSystem) : Prop where
  housed : ∀ task : Task, site.Housed job before files' (tasks.set position { task with stage })
  spares : ∀ (other : Nat) (task : Task) (workspace : Workspace), other ≠ position →
    tasks[other]? = some task → task.stage.workspace? = some workspace →
    files'.root.get? (site.home workspace) = files.root.get? (site.home workspace)

/-- A change that spares the workspaces of the other runs. -/
theorem Housed.update (h : site.Housed job before files tasks)
    (hc : Confined region files files') (hu : Unlinked site.caches files')
    (hsub : ∀ l, region l → site.Changes before l)
    (hothers : ∀ (other : Nat) (task : Task) (workspace : Workspace), other ≠ position →
      tasks[other]? = some task → task.stage.workspace? = some workspace →
      ∀ rest, ¬region (site.home workspace ++ rest))
    (hnew : ∀ workspace, stage.workspace? = some workspace →
      site.Houses job before files' workspace ∧
      ∀ (other : Nat) (task : Task) (workspace' : Workspace), other ≠ position →
        tasks[other]? = some task → task.stage.workspace? = some workspace' →
        site.home workspace ≠ site.home workspace') :
    site.Passes job before tasks position stage files files' := by
  refine ⟨fun task => ⟨⟨h.kept.changes.trans (hc.mono hsub), hu⟩, ?_, ?_⟩, ?_⟩
  · intro i task' workspace ht hw
    obtain ⟨rfl, rfl⟩ | ⟨hne, ht⟩ := Execution.tasks_set_cases ht
    · exact (hnew workspace hw).1
    · refine (h.houses i task' workspace ht hw).frame hc ?_
      simpa using hothers i task' workspace (Ne.symm hne) ht hw []
  · intro i j task' task'' workspace workspace' hij hi hj hw hw'
    obtain ⟨rfl, rfl⟩ | ⟨-, hi⟩ := Execution.tasks_set_cases hi
    · rw [List.getElem?_set_ne hij] at hj
      exact (hnew workspace hw).2 j task'' workspace' (Ne.symm hij) hj hw'
    · obtain ⟨rfl, rfl⟩ | ⟨-, hj⟩ := Execution.tasks_set_cases hj
      · exact ((hnew workspace' hw').2 i task' workspace hij hi hw).symm
      · exact h.distinct i j task' task'' workspace workspace' hij hi hj hw hw'
  · intro other task' workspace hother ht hw
    exact hc.get?_eq _ (hothers other task' workspace hother ht hw)

theorem Housed.still (h : site.Housed job before files tasks) (hs : stage.workspace? = none) :
    site.Passes job before tasks position stage files files :=
  h.update (.refl (fun _ => False) files) h.kept.unlinked (by simp) (by simp) (by simp [hs])

section
variable (h : site.Housed job before files tasks) (hsite : site.Holds job plans before)
  (ht : tasks[position]? = some task) {own : Workspace} (hown : task.stage.workspace? = some own)
include h ht hown

theorem Housed.not_below (other : Nat) (task' : Task) (workspace : Workspace)
    (hother : other ≠ position) (ht' : tasks[other]? = some task')
    (hw : task'.stage.workspace? = some workspace) (rest : Location) :
    ¬site.home own <+: site.home workspace ++ rest :=
  (h.houses position task own ht hown).not_below (h.houses other task' workspace ht' hw)
    (h.distinct position other task task' own workspace (Ne.symm hother) ht ht' hown hw) rest

/-- A run that keeps its workspace, or gives it up, takes none of another run. -/
theorem Housed.keeps (hc : Confined region files files') (hr : ¬region (site.home own))
    (hs : stage.workspace? = none ∨ stage.workspace? = some own) (workspace : Workspace)
    (hw : stage.workspace? = some workspace) : site.Houses job before files' workspace ∧
      ∀ (other : Nat) (task : Task) (workspace' : Workspace), other ≠ position →
        tasks[other]? = some task → task.stage.workspace? = some workspace' →
        site.home workspace ≠ site.home workspace' := by
  obtain rfl : own = workspace := by
    rcases hs with hs | hs
    · simp [hs] at hw
    · exact Option.some.inj (hs.symm.trans hw)
  refine ⟨(h.houses position task own ht hown).frame hc hr, ?_⟩
  intro other task' workspace' hother ht' hw'
  exact h.distinct position other task task' own workspace' (Ne.symm hother) ht ht' hown hw'

include hsite

theorem Housed.confined_remove (hkept : site.Kept before files') :
    Confined (site.home own <+: ·) files' (Workspace.remove files' own) := by
  obtain ⟨plan, n, -, -, -, -⟩ := h.houses position task own ht hown
  rw [home_eq]
  exact Workspace.confined_remove (hsite.temporary_resolves hkept) (Workspace.isName_nameOf plan n)

theorem Housed.unlinked_remove {now later : FileSystem}
    (hc : Confined (site.home own <+: ·) now later) (hu : Unlinked site.caches now) :
    Unlinked site.caches later := by
  apply hc.unlinked hu
  rintro l hl ⟨rest, rfl⟩
  exact (h.houses position task own ht hown).not_caches hsite rest hl

theorem Housed.replied (hminds : site.Minds own files files')
    (hs : stage.workspace? = none ∨ stage.workspace? = some own) :
    site.Passes job before tasks position stage files files' := by
  refine h.update hminds.confined (hminds.unlinked h.kept.unlinked) ?_ ?_
    (h.keeps ht hown hminds.confined ?_ hs)
  · rintro l (hl | hl)
    · exact .inl hl
    · exact .inr ((h.houses position task own ht hown).isNew hl.1)
  · rintro other task' workspace hother ht' hw rest (hl | hl)
    · exact (h.houses other task' workspace ht' hw).not_caches hsite rest hl
    · exact h.not_below ht hown other task' workspace hother ht' hw rest hl.1
  · rintro (hl | hl)
    · refine (h.houses position task own ht hown).not_caches hsite [] ?_
      rwa [List.append_nil]
    · exact hl.2 rfl

theorem Housed.restored (hplan : task.plan ∈ plans) (found : Resolution)
    (hs : stage.workspace? = some own) : site.Passes job before tasks position stage files
      (found.restore files (job.workflow.cache.directoryFor task.plan)).1 := by
  obtain ⟨base, first, henters⟩ := hsite.enters_later h.kept hplan
  have hgrows := Resolution.grows_restore hsite.closed henters h.kept.unlinked found
  refine h.replied hsite ht hown ⟨hgrows.confined.mono fun l => .inl, fun _ => hgrows.unlinked⟩
    (.inr hs)

theorem Housed.removed (hs : stage.workspace? = none) :
    site.Passes job before tasks position stage files (Workspace.remove files own) := by
  have hc := h.confined_remove hsite ht hown h.kept
  exact h.update hc (h.unlinked_remove hsite ht hown hc h.kept.unlinked)
    (fun l hl => .inr ((h.houses position task own ht hown).isNew hl)) (h.not_below ht hown)
    (by simp [hs])

theorem Housed.gaveUp (hminds : site.Minds own files files') (hs : stage.workspace? = none) :
    site.Passes job before tasks position stage files (Workspace.remove files' own) := by
  have hown' := h.houses position task own ht hown
  have hunlinked := hminds.unlinked h.kept.unlinked
  have hkept : site.Kept before files' := by
    refine ⟨h.kept.changes.trans (hminds.confined.mono ?_), hunlinked⟩
    rintro l (hl | hl)
    · exact .inl hl
    · exact .inr (hown'.isNew hl.1)
  have hc := h.confined_remove hsite ht hown hkept
  have hboth : Confined (fun l => site.caches l ∨ site.home own <+: l) files
      (Workspace.remove files' own) :=
    (hminds.confined.mono fun l hl => hl.imp_right (·.1)).trans (hc.mono fun l => .inr)
  refine h.update hboth (h.unlinked_remove hsite ht hown hc hunlinked) ?_ ?_ (by simp [hs])
  · rintro l (hl | hl)
    · exact .inl hl
    · exact .inr (hown'.isNew hl)
  · rintro other task' workspace hother ht' hw rest (hl | hl)
    · exact (h.houses other task' workspace ht' hw).not_caches hsite rest hl
    · exact h.not_below ht hown other task' workspace hother ht' hw rest hl

end

/-- A change at a place in the directory of the workspaces that nothing had. -/
theorem Housed.atNew (h : site.Housed job before files tasks) (hsite : site.Holds job plans before)
    {plan : Plan} {n : Nat}
    (hnone : files.root.kindAt (site.temporary ++ [Workspace.nameOf plan n]) = none)
    (hc : Confined (site.temporary ++ [Workspace.nameOf plan n] <+: ·) files files')
    (hnew : ∀ workspace, stage.workspace? = some workspace →
      workspace = ⟨Path.join job.temporary (Workspace.nameOf plan n)⟩ ∧
        site.Houses job before files' workspace) :
    site.Passes job before tasks position stage files files' := by
  have hmissing (other : Nat) (task : Task) (workspace : Workspace)
      (ht : tasks[other]? = some task) (hw : task.stage.workspace? = some workspace) :=
    (h.houses other task workspace ht hw).not_missing hnone
  refine h.update hc ?_ (fun l hl => .inr ⟨_, hl, hsite.missing_before h.kept hnone⟩)
    (fun other task workspace _ => hmissing other task workspace) fun workspace hw => ?_
  · refine hc.unlinked h.kept.unlinked ?_
    rintro l hl ⟨rest, rfl⟩
    rw [List.append_assoc] at hl
    exact hsite.caches_workspace plan n rest hl
  · obtain ⟨hpath, hhouses⟩ := hnew workspace hw
    refine ⟨hhouses, fun other task' workspace' _ ht' hw' heq => ?_⟩
    refine hmissing other task' workspace' ht' hw' [] ?_
    rw [← heq, hpath, home_eq]
    exact List.prefix_append _ _

theorem Housed.staged (h : site.Housed job before files tasks) (hsite : site.Holds job plans before)
    {plan : Plan} {result : Except WorkspaceError Workspace}
    (hst : Workspace.stage files job.temporary job.directory plan = (files', result))
    (hs : stage.workspace? = result.toOption) :
    site.Passes job before tasks position stage files files' := by
  have hstages := hsite.stages h.kept plan
  rw [hst] at hstages
  cases hstages with
  | notMade e => exact h.still hs
  | failed n _ e hnone hc => exact h.atNew hsite hnone hc (by simp [hs, Except.toOption])
  | done n _ hnone hc hget hname hu =>
      refine h.atNew hsite hnone hc fun workspace hw => ?_
      obtain rfl : _ = workspace := Option.some.inj (hs.symm.trans hw)
      exact ⟨rfl, plan, n, hname, hu, hsite.missing_before h.kept hnone, kindAt_of_get? hget⟩

theorem Housed.turn (h : site.Housed job before files tasks) (hsite : site.Holds job plans before)
    (ht : tasks[position]? = some task) (hplan : task.plan ∈ plans) {reply : Reply}
    (htouch : Task.Touches job reply task.plan files task.stage.workspace? files' stage.workspace?)
    (hreply : ∀ workspace, task.stage.workspace? = some workspace →
      site.Minds workspace files (reply.files files)) :
    site.Passes job before tasks position stage files files' := by
  generalize hold : task.stage.workspace? = old at htouch
  generalize hnow : stage.workspace? = now at htouch
  cases htouch with
  | nothing before after hs =>
      cases old with
      | none => exact h.still (by rw [hnow]; simpa using hs)
      | some own =>
          exact h.replied hsite ht hold (.refl _ _ _) (hnow ▸ hs)
  | replied own after hs => exact h.replied hsite ht hold (hreply own hold) (hnow ▸ hs)
  | staged files'' result hst => exact h.staged hsite hst hnow
  | restored own found => exact h.restored hsite ht hold hplan found hnow
  | removed own => exact h.removed hsite ht hold hnow
  | gaveUp own => exact h.gaveUp hsite ht hold (hreply own hold) hnow

theorem housed_start {event : String} {id : Ident} {shared : Shared}
    (hsite : site.Holds job plans shared.scene.files) :
    site.Housed job shared.scene.files shared.scene.files
      (Execution.start job event id shared).tasks where
  kept := ⟨.refl _ _, hsite.unlinked⟩
  houses position task workspace ht hw := by
    simp [Execution.stage_start ht, Stage.workspace?] at hw
  distinct i j task task' workspace workspace' _ ht _ hw := by
    simp [Execution.stage_start ht, Stage.workspace?] at hw

end

end Site

end BuildMatrix
