import BuildMatrix.Proofs.Workspace.Pruning
import BuildMatrix.Proofs.Workspace.Success

/-!
# Workspaces beside each other

The runs of an execution stage their workspaces in one directory, work in them and remove them. If
this directory lies in the package root, then the package root has the workspaces that are in use,
and so has the copy that is staged next.
-/

namespace BuildMatrix

open FileSystem

namespace Entries

theorem IsTree.erase {name : String} : ∀ {entries : Entries},
    entries.IsTree → (entries.erase name).IsTree
  | nil, _ => trivial
  | cons first node rest, ⟨hn, hname, hnew, hnode, hrest⟩ => by
      by_cases heq : first = name
      · simpa [Entries.erase, heq] using hrest
      · rw [Entries.erase, if_neg heq]
        refine ⟨hn, hname, ?_, hnode, hrest.erase⟩
        rw [find?_erase_of_ne heq, hnew]

theorem IsTree.find?_erase_self {name : String} : ∀ {entries : Entries},
    entries.IsTree → (entries.erase name).find? name = none
  | nil, _ => rfl
  | cons first node rest, ⟨_, _, hnew, _, hrest⟩ => by
      by_cases heq : first = name
      · rw [Entries.erase, if_pos heq, ← heq, hnew]
      · rw [Entries.erase, if_neg heq, find?_cons, if_neg heq, hrest.find?_erase_self]

end Entries

namespace Workspace

inductive Deed where
  | stage (plan : Plan)
  /-- The steps of a run leave something else in its workspace. -/
  | work (workspace : Workspace) (contents : Entries) (tree : contents.IsTree)
  | remove (workspace : Workspace)

/-- The files, and the workspaces in use. -/
structure Bench where
  files : FileSystem
  workspaces : List Workspace

def fill (files : FileSystem) (workspace : Workspace) (contents : Entries) : FileSystem :=
  match files.lookup false workspace.path with
  | .ok (.present location (.directory _)) => files.withEntries location contents
  | _ => files

namespace Bench

def after (temporary source : String) (bench : Bench) : Deed → Bench
  | .stage plan => match stage bench.files temporary source plan with
    | (files, .ok workspace) => ⟨files, bench.workspaces ++ [workspace]⟩
    | (files, .error _) => ⟨files, bench.workspaces⟩
  | .work workspace contents _ =>
    if workspace ∈ bench.workspaces then ⟨fill bench.files workspace contents, bench.workspaces⟩
    else bench
  | .remove workspace =>
    if workspace ∈ bench.workspaces then
      ⟨Workspace.remove bench.files workspace, bench.workspaces.erase workspace⟩
    else bench

def afterAll (temporary source : String) (files : FileSystem) (deeds : List Deed) : Bench :=
  deeds.foldl (after temporary source) ⟨files, []⟩

end Bench

structure Staged (temporary : String) (others : Entries) (name : String) (node : Node) : Prop where
  named : ∃ plan n, name = nameOf plan n
  usable : IsUsable (Path.join temporary name)
  new : others.find? name = none
  directory : ∃ inner, node = .directory inner

/-- Beside what the caller left there are the workspaces in use and nothing else. -/
structure Accounts (fs : FileSystem) (temporary : String) (top : Location) (others : Entries)
    (bench : Bench) (there : Entries) : Prop where
  files : bench.files = fs.withEntries top (others.append there)
  workspaces : bench.workspaces = there.names.map fun name => ⟨Path.join temporary name⟩
  tree : there.IsTree
  staged : ∀ name node, there.find? name = some node → Staged temporary others name node

section
variable {fs : FileSystem} {temporary source : String} {top location : Location}
  {others left there now : Entries} {bench : Bench}

theorem Accounts.new (h : Accounts fs temporary top others bench there) (name : String)
    (hname : there.find? name ≠ none) : others.find? name = none := by
  obtain ⟨node, hnode⟩ := Option.ne_none_iff_exists'.mp hname
  exact (h.staged name node hnode).new

theorem Accounts.exists_name (h : Accounts fs temporary top others bench there)
    {workspace : Workspace} (hmem : workspace ∈ bench.workspaces) :
    ∃ name inner, workspace = ⟨Path.join temporary name⟩ ∧
      there.find? name = some (.directory inner) := by
  rw [h.workspaces] at hmem
  obtain ⟨name, hname, rfl⟩ := List.mem_map.mp hmem
  obtain ⟨node, hnode⟩ := Entries.mem_names.mp hname
  obtain ⟨inner, rfl⟩ := (h.staged name node hnode).directory
  exact ⟨name, inner, rfl, hnode⟩

theorem accounts_start (g : Grounds fs temporary source top location others left) :
    Accounts fs temporary top others ⟨fs, []⟩ .nil where
  files := by rw [Entries.append_nil, withEntries_self g.others_eq]
  workspaces := rfl
  tree := trivial
  staged name node h := by simp at h

theorem Accounts.find?_append (h : Accounts fs temporary top others bench there) {name : String}
    {node : Node} (hname : there.find? name = some node) :
    (others.append there).find? name = some node := by
  rw [Entries.find?_append, (h.staged name node hname).new, hname, Option.none_or]

theorem erase_map_join {names : List String} (hnames : ∀ other ∈ names, IsName other)
    {name : String} (hn : IsName name) :
    (names.map fun name => Workspace.mk (Path.join temporary name)).erase
      ⟨Path.join temporary name⟩ =
        (names.erase name).map fun name => ⟨Path.join temporary name⟩ := by
  induction names with
  | nil => rfl
  | cons first rest ih =>
      obtain ⟨hfirst, hrest⟩ := List.forall_mem_cons.mp hnames
      by_cases heq : first = name
      · simp [heq]
      · have hne : Path.join temporary first ≠ Path.join temporary name :=
          mt (Path.join_inj hfirst.isAbsolute_eq hn.isAbsolute_eq).mp heq
        simp [heq, hne, ih hrest]

variable (g : Grounds fs temporary source top location others left)
  (h : Accounts fs temporary top others bench there)
include g h

/-- The workspaces in use do not disturb the grounds. -/
theorem Accounts.grounds (hnow : Becomes top location left (others.append there) now) :
    Grounds bench.files temporary source top location (others.append there) now := by
  rw [h.files]
  exact g.append h.tree h.new hnow

theorem Accounts.others_eq :
    bench.files.root.get? top = some (.directory (others.append there)) := by
  rw [h.files, get?_withEntries g.others_eq]

theorem Accounts.temporary_leads :
    ∃ links, Resolves (fun _ => False) bench.files temporary links top := by
  obtain ⟨now, hnow⟩ := exists_becomes top location left (others.append there)
  exact (h.grounds g hnow).temporary_leads

theorem Accounts.after_stage (plan : Plan) :
    ∃ there', Accounts fs temporary top others (bench.after temporary source (.stage plan))
      there' := by
  obtain ⟨now, hnow⟩ := exists_becomes top location left (others.append there)
  have hg := h.grounds g hnow
  unfold Bench.after
  simp only
  rcases hg.stage_eq plan with ⟨e, he⟩ | ⟨n, hfree, hname, hu, hok⟩
  · rw [he]
    exact ⟨there, h⟩
  · rw [hok]
    obtain ⟨hothers, hthere⟩ : others.find? (nameOf plan n) = none ∧
        there.find? (nameOf plan n) = none := by
      rwa [Entries.find?_append, Option.or_eq_none_iff] at hfree
    have hone : (Entries.cons (nameOf plan n) (.directory (pruned now)) .nil).IsTree :=
      ⟨isName_nameOf plan n, hname, rfl, isTree_pruned hg.tree, trivial⟩
    refine ⟨there.append (.cons (nameOf plan n) (.directory (pruned now)) .nil), ?_, ?_, ?_, ?_⟩
    · simp only [h.files, withEntries_withEntries g.others_eq, Entries.append_assoc]
    · simp [h.workspaces, Entries.names_append]
    · refine h.tree.append hone fun other hother => ?_
      by_cases hne : nameOf plan n = other
      · rw [← hne, hthere]
      · simp [Entries.find?_cons, hne] at hother
    · intro name node hnode
      rw [Entries.find?_append, Option.or_eq_some_iff] at hnode
      rcases hnode with hnode | ⟨-, hnode⟩
      · exact h.staged name node hnode
      · rw [Entries.find?_cons] at hnode
        split at hnode
        · next heq =>
            cases hnode
            exact heq ▸ ⟨⟨plan, n, rfl⟩, hu, hothers, _, rfl⟩
        · cases hnode

theorem Accounts.after_work (workspace : Workspace) (contents : Entries) (ht : contents.IsTree) :
    ∃ there', Accounts fs temporary top others
      (bench.after temporary source (.work workspace contents ht)) there' := by
  unfold Bench.after
  simp only
  split
  · next hmem =>
      obtain ⟨name, inner, rfl, hfind⟩ := h.exists_name hmem
      obtain ⟨links, htop⟩ := h.temporary_leads g
      have hothers := h.others_eq g
      have hstaged := h.staged name _ hfind
      obtain ⟨hn, hname, -⟩ := h.tree.find? hfind
      refine ⟨there.insert name (.directory contents), ?_, ?_, ?_, ?_⟩
      · simp only [fill, htop.lookup_entry hn hstaged.usable hname hothers
          (h.find?_append hfind) (by simp)]
        rw [withEntries, placeAt_concat hothers, Entries.insert_append _ _ hstaged.new, h.files,
          withEntries_withEntries g.others_eq]
      · rw [Entries.names_insert _ hfind]
        exact h.workspaces
      · have hnode : (Node.directory contents).IsTree := ht
        exact Entries.IsTree.insert hn hname hnode h.tree
      · intro other node hnode
        by_cases hne : other = name
        · subst hne
          rw [Entries.find?_insert_self] at hnode
          cases hnode
          exact ⟨hstaged.named, hstaged.usable, hstaged.new, _, rfl⟩
        · rw [Entries.find?_insert_of_ne hne] at hnode
          exact h.staged other node hnode
  · exact ⟨there, h⟩

theorem Accounts.after_remove (workspace : Workspace) :
    ∃ there', Accounts fs temporary top others
      (bench.after temporary source (.remove workspace)) there' := by
  unfold Bench.after
  simp only
  split
  · next hmem =>
      obtain ⟨name, inner, rfl, hfind⟩ := h.exists_name hmem
      obtain ⟨links, htop⟩ := h.temporary_leads g
      have hothers := h.others_eq g
      have hstaged := h.staged name _ hfind
      obtain ⟨hn, hname, -⟩ := h.tree.find? hfind
      refine ⟨there.erase name, ?_, ?_, h.tree.erase, ?_⟩
      · simp only [Workspace.remove, htop.removeAll_entry hn hname hstaged.usable hothers
          (h.find?_append hfind)]
        rw [Entries.erase_append _ hstaged.new, h.files, withEntries_withEntries g.others_eq]
      · rw [Entries.names_erase]
        simp only [h.workspaces]
        refine erase_map_join (fun other hother => ?_) hn
        obtain ⟨node, hnode⟩ := Entries.mem_names.mp hother
        exact (h.tree.find? hnode).1
      · intro other node hnode
        by_cases hne : other = name
        · rw [hne, h.tree.find?_erase_self] at hnode
          cases hnode
        · rw [Entries.find?_erase_of_ne hne] at hnode
          exact h.staged other node hnode
  · exact ⟨there, h⟩

theorem Accounts.after (deed : Deed) :
    ∃ there', Accounts fs temporary top others (bench.after temporary source deed) there' := by
  cases deed with
  | stage plan => exact h.after_stage g plan
  | work workspace contents tree => exact h.after_work g workspace contents tree
  | remove workspace => exact h.after_remove g workspace

omit h in
theorem accounts_afterAll (deeds : List Deed) :
    ∃ there, Accounts fs temporary top others (Bench.afterAll temporary source fs deeds) there := by
  have hrun (deeds : List Deed) : ∀ {bench : Bench} {there : Entries},
      Accounts fs temporary top others bench there →
      ∃ there', Accounts fs temporary top others (deeds.foldl (Bench.after temporary source) bench)
        there' := by
    induction deeds with
    | nil => exact fun h => ⟨_, h⟩
    | cons deed deeds ih =>
        intro bench there h
        obtain ⟨there', h'⟩ := h.after g deed
        exact ih h'
  exact hrun deeds (accounts_start g)

theorem Accounts.get?_copy (hnow : Becomes top location left (others.append there) now)
    {down : Location} (hdown : top = location ++ down)
    (hkept : ∀ name ∈ down, isSkipped name = false) {name : String} {inner : Entries}
    (hname : there.find? name = some (.directory inner)) :
    (Node.directory (pruned now)).get? (down ++ [name]) = some (.directory (pruned inner)) := by
  have hg := h.grounds g hnow
  have hget := hg.get?_down hdown
  have hroot : (Node.directory now).IsTree := hg.tree
  have htree : (others.append there).IsTree := hroot.get? hget
  obtain ⟨plan, n, rfl⟩ := (h.staged name _ hname).named
  rw [Node.get?_concat (get?_pruned hg.tree hkept hget), find?_pruned _ htree,
    h.find?_append hname, Option.bind_some, keptEntry, if_neg (by simp [isSkipped_nameOf])]

theorem Accounts.pruned_eq_iff (hnow : Becomes top location left (others.append there) now) :
    pruned now = pruned left ↔ ¬location <+: top ∨
      (∃ down, top = location ++ down ∧ ∃ name ∈ down, isSkipped name) ∨
      bench.workspaces = [] := by
  by_cases hin : location <+: top
  · obtain ⟨down, hdown⟩ := hin
    have hget := g.get?_down hdown.symm
    have hinside := hnow.inside down hdown.symm
    by_cases hskipped : ∃ name ∈ down, isSkipped name
    · exact iff_of_true (pruned_place hget hinside hskipped)
        (.inr (.inl ⟨down, hdown.symm, hskipped⟩))
    have hkept : ∀ name ∈ down, isSkipped name = false := by
      simpa using hskipped
    cases there with
    | nil =>
        rw [Entries.append_nil, Node.place_of_get? hget] at hinside
        cases hinside
        exact iff_of_true rfl (.inr (.inr h.workspaces))
    | cons name node rest =>
        have hfind : (Entries.cons name node rest).find? name = some node := by
          simp [Entries.find?_cons]
        obtain ⟨inner, rfl⟩ := (h.staged name node hfind).directory
        refine iff_of_false (fun heq => ?_) ?_
        · have hcopy := h.get?_copy g hnow hdown.symm hkept hfind
          have hroot : (Node.directory left).IsTree := g.tree
          have htree : others.IsTree := hroot.get? hget
          rw [heq, Node.get?_concat (get?_pruned g.tree hkept hget), find?_pruned _ htree,
            (h.staged name _ hfind).new] at hcopy
          cases hcopy
        · rintro (hout | ⟨down', hdown', hs⟩ | hnone)
          · exact hout ⟨down, hdown⟩
          · rw [← hdown] at hdown'
            exact hskipped (List.append_cancel_left hdown' ▸ hs)
          · rw [h.workspaces] at hnone
            simp at hnone
  · exact iff_of_true (by rw [hnow.outside hin]) (.inl hin)

end

/-- What staging does beside the workspaces in use. -/
structure StagesBeside (fs : FileSystem) (temporary source : String) (top location : Location)
    (others left : Entries) (bench : Bench) (plan : Plan) (there now : Entries) : Prop where
  /-- The workspaces in use are all that is new in their directory. -/
  files : bench.files = fs.withEntries top (others.append there)
  workspaces : bench.workspaces = there.names.map fun name => ⟨Path.join temporary name⟩
  root : bench.files.root.get? location = some (.directory now)
  becomes : Becomes top location left (others.append there) now
  /-- Either nothing is left, or a copy of the package root as it is now. -/
  outcome : (∃ e, stage bench.files temporary source plan = (bench.files, .error e)) ∨
    ∃ n, (others.append there).find? (nameOf plan n) = none ∧
      stage bench.files temporary source plan =
        (bench.files.withEntries top ((others.append there).append
          (.cons (nameOf plan n) (.directory (pruned now)) .nil)),
          .ok ⟨Path.join temporary (nameOf plan n)⟩)
  succeeds : Ample temporary source (others.append there) now plan →
    ∃ workspace, (stage bench.files temporary source plan).2 = .ok workspace
  /-- When this is a copy of what the caller left. -/
  pruned_eq_iff : pruned now = pruned left ↔ ¬location <+: top ∨
    (∃ down, top = location ++ down ∧ ∃ name ∈ down, isSkipped name) ∨ bench.workspaces = []
  /-- Otherwise it has a copy of each workspace in use. -/
  nested : ∀ down, top = location ++ down → (∀ name ∈ down, isSkipped name = false) →
    ∀ name inner, there.find? name = some (.directory inner) →
      (Node.directory (pruned now)).get? (down ++ [name]) = some (.directory (pruned inner))

/--
However the runs of an execution have staged, used and removed workspaces, the next one is a copy of
the package root as it is then. This is a copy of what the caller left exactly if the workspaces are
outside of the package root or in a directory that copies leave out, or if none is in use.
-/
theorem stages_beside {fs : FileSystem} {temporary source : String} {top location : Location}
    {others left : Entries} (g : Grounds fs temporary source top location others left)
    (deeds : List Deed) (plan : Plan) : ∃ there now,
      StagesBeside fs temporary source top location others left
        (Bench.afterAll temporary source fs deeds) plan there now := by
  obtain ⟨there, h⟩ := accounts_afterAll g deeds
  obtain ⟨now, hnow⟩ := exists_becomes top location left (others.append there)
  have hg := h.grounds g hnow
  refine ⟨there, now, h.files, h.workspaces, hg.left_eq, hnow, ?_, hg.stage_succeeds,
    h.pruned_eq_iff g hnow, fun down hdown hkept name inner => h.get?_copy g hnow hdown hkept⟩
  rcases hg.stage_eq plan with herror | ⟨n, hfree, -, -, hok⟩
  · exact .inl herror
  · rw [h.files] at hok ⊢
    exact .inr ⟨n, hfree, hok⟩

def onePackage : Entries := .cons "setup.py" (.file [115, 101, 116, 117, 112, 40, 41] false) .nil

def onePackageFiles : FileSystem := ⟨.directory (.cons "pkg" (.directory onePackage) .nil), []⟩

theorem grounds_onePackage :
    Grounds onePackageFiles "/pkg" "/pkg" ["pkg"] ["pkg"] onePackage onePackage := by
  have hleads : Resolves (fun _ => False) onePackageFiles "/pkg" linkLimit ["pkg"] := by
    refine ⟨by simp, ?_⟩
    have hnames : Path.names "/pkg" = ["pkg"] := by decide
    have hstart : onePackageFiles.startOf "/pkg" = [] := by decide
    have hkind : onePackageFiles.root.kindAt ([] ++ ["pkg"]) = some .directory := by decide
    rw [hnames, hstart]
    exact .down (by decide) hkind (by simp) (by simp) .done
  refine ⟨⟨_, hleads⟩, ⟨_, hleads⟩, rfl, rfl, by decide, fun down hdown => ?_⟩
  have hnone : down = [] := by simpa using hdown
  rw [hnone]
  simp

theorem stages_beside_onePackage : ∃ there now,
    StagesBeside onePackageFiles "/pkg" "/pkg" ["pkg"] ["pkg"] onePackage onePackage
      (Bench.afterAll "/pkg" "/pkg" onePackageFiles [.stage ⟨[("os", "a")]⟩]) ⟨[("os", "b")]⟩
      there now :=
  stages_beside grounds_onePackage _ _

/-- The second of two workspaces in the package root has a copy of the first, which the caller did
not leave there. -/
theorem stage_twice_onePackage :
    let once := stage onePackageFiles "/pkg" "/pkg" ⟨[("os", "a")]⟩
    let twice := stage once.1 "/pkg" "/pkg" ⟨[("os", "b")]⟩
    once.2 = .ok ⟨"/pkg/ci-matrix-os-a-000000"⟩ ∧ twice.2 = .ok ⟨"/pkg/ci-matrix-os-b-000000"⟩ ∧
      twice.1.root.kindAt
        ["pkg", "ci-matrix-os-b-000000", "ci-matrix-os-a-000000", "setup.py"] = some .file ∧
      (Node.directory (pruned onePackage)).kindAt ["ci-matrix-os-a-000000", "setup.py"] = none := by
  decide +kernel

end Workspace

end BuildMatrix
