import BuildMatrix.Proofs.Workspace.Inside
import BuildMatrix.Proofs.Workspace.Route

/-!
# What staging leaves

Staging changes nothing if it fails. If it succeeds, one entry is new in the directory of the
workspaces, and it holds the pruned copy of the package root as it was found, also if this directory
lies in the package root.
-/

namespace BuildMatrix

open FileSystem

namespace Entries

theorem find?_cons_eq_none {first name : String} {node : Node} {rest : Entries} :
    (cons first node rest).find? name = none ↔ first ≠ name ∧ rest.find? name = none := by
  rw [find?_cons]
  by_cases hn : first = name <;> simp [hn]

theorem insert_append {name : String} (node : Node) (b : Entries) :
    ∀ {a : Entries}, a.find? name = none →
      (a.append b).insert name node = a.append (b.insert name node)
  | nil, _ => rfl
  | cons first old rest, h => by
      obtain ⟨hne, hrest⟩ := find?_cons_eq_none.mp h
      simp [append, insert, hne, insert_append node b hrest]

theorem erase_append {name : String} (b : Entries) :
    ∀ {a : Entries}, a.find? name = none → (a.append b).erase name = a.append (b.erase name)
  | nil, _ => rfl
  | cons first old rest, h => by
      obtain ⟨hne, hrest⟩ := find?_cons_eq_none.mp h
      simp [append, erase, hne, erase_append b hrest]

theorem erase_insert_self {entries : Entries} {name : String} (h : entries.find? name = none)
    (node : Node) : (entries.insert name node).erase name = entries := by
  rw [insert_of_find?_eq_none node h, erase_append _ h, erase, if_pos rfl, append_nil]

def names (entries : Entries) : List String := entries.toList.map Prod.fst

@[simp] theorem names_nil : nil.names = [] := rfl

@[simp] theorem names_cons (name : String) (node : Node) (rest : Entries) :
    (cons name node rest).names = name :: rest.names := rfl

theorem length_names (entries : Entries) : entries.names.length = entries.toList.length :=
  List.length_map _

theorem names_append (b : Entries) : ∀ a : Entries, (a.append b).names = a.names ++ b.names
  | nil => rfl
  | cons name node rest => by simp [append, names_append b rest]

theorem mem_names {name : String} :
    ∀ {entries : Entries}, name ∈ entries.names ↔ ∃ node, entries.find? name = some node
  | nil => by simp
  | cons first node rest => by
      rw [names_cons, List.mem_cons, mem_names, find?_cons]
      by_cases hn : first = name
      · simp [hn]
      · simp [hn, Ne.symm hn]

theorem names_insert {name : String} {old : Node} (new : Node) : ∀ {entries : Entries},
    entries.find? name = some old → (entries.insert name new).names = entries.names
  | nil, h => by simp at h
  | cons first node rest, h => by
      rw [find?_cons] at h
      by_cases hn : first = name
      · simp [insert, hn]
      · rw [if_neg hn] at h
        simp [insert, hn, names_insert new h]

theorem names_erase (name : String) :
    ∀ entries : Entries, (entries.erase name).names = entries.names.erase name
  | nil => rfl
  | cons first node rest => by
      by_cases hn : first = name
      · simp [erase, hn]
      · simp [erase, hn, names_erase name rest]

theorem IsTree.append {b : Entries} : ∀ {a : Entries}, a.IsTree → b.IsTree →
    (∀ name, b.find? name ≠ none → a.find? name = none) → (a.append b).IsTree
  | nil, _, hb, _ => hb
  | cons name node rest, ⟨hn, hname, hrest, hnode, ht⟩, hb, hnew => by
      have hname' : b.find? name = none := by
        by_contra hfound
        simpa [find?_cons] using hnew name hfound
      refine ⟨hn, hname, ?_, hnode, ht.append hb fun other hother => ?_⟩
      · rw [find?_append, hrest, Option.none_or, hname']
      · exact (find?_cons_eq_none.mp (hnew other hother)).2

end Entries

namespace Node

theorem edit_of_get? {node : Node} {location : Location} {entries : Entries}
    (h : node.get? location = some (directory entries)) (f : Entries → Entries) :
    node.edit f location = node.place location (directory (f entries)) := by
  induction location generalizing node with
  | nil =>
      obtain rfl : node = directory entries := by simpa using h
      rfl
  | cons name location ih =>
      obtain ⟨outer, child, rfl, hchild, hrest⟩ := exists_entry_of_get? h
      rw [place_cons hchild, edit, hchild, ← ih hrest]

end Node

namespace FileSystem

section
variable {avoid : Location → Prop} {fs : FileSystem} {base name : String} {links : Nat}
  {location : Location} {entries : Entries}

theorem Resolves.removeAll_entry (h : Resolves avoid fs base links location) (hn : IsName name)
    (hname : IsEntryName name) (hu : IsUsable (Path.join base name))
    (hd : fs.root.get? location = some (.directory entries)) {inner : Entries}
    (hf : entries.find? name = some (.directory inner)) :
    fs.removeAll (Path.join base name) = fs.withEntries location (entries.erase name) := by
  rw [removeAll, h.lookup_entry hn hu hname hd hf (by simp)]
  simp only [Node.remove_concat, Node.edit_of_get? hd]
  rfl

theorem confined_append {top : Location} : ∀ {there others : Entries} {fs : FileSystem},
    fs.root.get? top = some (.directory others) → there.IsTree →
    (∀ name, there.find? name ≠ none → others.find? name = none) →
    Confined (fun l => ∃ name, others.find? name = none ∧ top ++ [name] <+: l) fs
      (fs.withEntries top (others.append there))
  | .nil, others, fs, hd, _, _ => by
      rw [Entries.append_nil, withEntries_self hd]
      exact .refl _ _
  | .cons name node rest, others, fs, hd, ht, hnew => by
      obtain ⟨-, -, hname, -, hrest⟩ := ht
      have hmissing := hnew name (by simp [Entries.find?_cons])
      have hfirst : Confined (fun l => ∃ name, others.find? name = none ∧ top ++ [name] <+: l) fs
          (fs.withEntries top (others.insert name node)) := by
        rw [← placeAt_concat hd]
        exact (confined_placeAt_self _ _ _).mono fun l hp => ⟨name, hmissing, hp⟩
      have hothers := confined_append (get?_withEntries hd (others.insert name node)) hrest
        fun other hother => by
          have hne : other ≠ name := by
            rintro rfl
            exact hother hname
          rw [Entries.find?_insert_of_ne hne]
          exact hnew other (by simpa [Entries.find?_cons, hne.symm] using hother)
      rw [withEntries_withEntries hd, Workspace.insert_append_pruned hmissing] at hothers
      refine hfirst.trans (hothers.mono fun l ⟨other, hother, hp⟩ => ⟨other, ?_, hp⟩)
      rwa [Entries.find?_insert_of_ne] at hother
      rintro rfl
      simp [Entries.find?_insert_self] at hother

end

end FileSystem

namespace Workspace

/-- A package root and a directory for workspaces, as they are found. -/
structure Grounds (fs : FileSystem) (temporary source : String) (top location : Location)
    (others left : Entries) : Prop where
  temporary_leads : ∃ links, Resolves (fun _ => False) fs temporary links top
  source_leads : ∃ links, Resolves (fun _ => False) fs source links location
  others_eq : fs.root.get? top = some (.directory others)
  left_eq : fs.root.get? location = some (.directory left)
  tree : left.IsTree
  /-- A directory for workspaces in the package root is named as a directory of it. -/
  spelled : ∀ down, top = location ++ down →
    Path.components temporary = Path.components source ++ down.map .name

/-- What the package root is once the directory for workspaces has given entries. -/
structure Becomes (top location : Location) (left entries now : Entries) : Prop where
  outside : ¬location <+: top → now = left
  inside : ∀ down, top = location ++ down →
    (Node.directory left).place down (.directory entries) = .directory now

theorem exists_becomes (top location : Location) (left entries : Entries) :
    ∃ now, Becomes top location left entries now := by
  by_cases hin : location <+: top
  · obtain ⟨down, rfl⟩ := hin
    obtain ⟨now, hnow⟩ := Node.exists_directory_place left down entries
    refine ⟨now, fun hout => absurd (List.prefix_append _ _) hout, fun other hother => ?_⟩
    rw [← List.append_cancel_left hother, hnow]
  · refine ⟨left, fun _ => rfl, fun down hdown => ?_⟩
    exact absurd (hdown ▸ List.prefix_append location down) hin

namespace Grounds

section
variable {fs : FileSystem} {temporary source : String} {top location : Location}
  {others left there now : Entries} (g : Grounds fs temporary source top location others left)
include g

theorem get?_down {down : Location} (h : top = location ++ down) :
    (Node.directory left).get? down = some (.directory others) := by
  have hget := g.others_eq
  rwa [h, Node.get?_append, g.left_eq, Option.bind_some] at hget

theorem absent {name : String} (hnew : others.find? name = none) {l : Location}
    (h : top ++ [name] <+: l) : fs.root.kindAt l = none := by
  obtain ⟨rest, rfl⟩ := h
  rw [Node.kindAt, Node.get?_append, Node.get?_concat g.others_eq, hnew]
  rfl

theorem append (ht : there.IsTree)
    (hnew : ∀ name, there.find? name ≠ none → others.find? name = none)
    (hnow : Becomes top location left (others.append there) now) :
    Grounds (fs.withEntries top (others.append there)) temporary source top location
      (others.append there) now := by
  have hconf := confined_append g.others_eq ht hnew
  have hclosed : IsClosed fun l => ∃ name, others.find? name = none ∧ top ++ [name] <+: l :=
    fun _ _ ⟨name, hname, hp⟩ hl => ⟨name, hname, hp.trans hl⟩
  have habsent (l : Location) : (∃ name, others.find? name = none ∧ top ++ [name] <+: l) →
      fs.root.kindAt l = none := fun ⟨_, hname, hp⟩ => g.absent hname hp
  have hleads {path : String} {end_ : Location} {entries : Entries}
      (hr : ∃ links, Resolves (fun _ => False) fs path links end_)
      (hd : fs.root.get? end_ = some (.directory entries)) :
      ∃ links, Resolves (fun _ => False) (fs.withEntries top (others.append there)) path links
        end_ := by
    obtain ⟨links, hr⟩ := hr
    have havoid := hr.avoid_absent (by simp [Node.kindAt, hd]) habsent
    exact ⟨links, ((havoid.mono fun _ h => .inr h).frame hclosed hconf).mono (by simp)⟩
  refine ⟨hleads g.temporary_leads g.others_eq, hleads g.source_leads g.left_eq,
    get?_withEntries g.others_eq _, ?_, ?_, g.spelled⟩
  · by_cases hin : location <+: top
    · obtain ⟨down, hdown⟩ := hin
      have hget := Node.get?_place g.left_eq ((Node.directory left).place down
        (.directory (others.append there))) []
      rw [List.append_nil, ← Node.place_append g.left_eq, hdown, Node.get?_nil,
        hnow.inside down hdown.symm] at hget
      exact hget
    · rw [hnow.outside hin, hconf.get?_eq location, g.left_eq]
      rintro rest ⟨name, hname, hp⟩
      rcases List.prefix_or_prefix_of_prefix hp (List.prefix_append location rest) with h | h
      · have hnone := g.absent hname h
        simp [Node.kindAt, g.left_eq] at hnone
      rcases List.prefix_concat_iff.mp h with h | h
      · have hat : top ++ [name] <+: location := h ▸ List.prefix_rfl
        have hnone := g.absent hname hat
        simp [Node.kindAt, g.left_eq] at hnone
      · exact hin h
  · by_cases hin : location <+: top
    · obtain ⟨down, hdown⟩ := hin
      have hroot : (Node.directory left).IsTree := g.tree
      have hget := g.get?_down hdown.symm
      have hothers : others.IsTree := hroot.get? hget
      have hplace : ((Node.directory left).place down
          (.directory (others.append there))).IsTree :=
        Node.IsTree.place (hroot.names hget) hroot (hothers.append ht hnew)
      rw [hnow.inside down hdown.symm] at hplace
      exact hplace
    · rw [hnow.outside hin]
      exact g.tree

end

def opened (fs : FileSystem) (top : Location) (others : Entries) (name : String) : FileSystem :=
  fs.withEntries top (others.append (.cons name (.directory .nil) .nil))

section
variable {fs : FileSystem} {temporary source name : String} {top location : Location}
  {others left now : Entries} (g : Grounds fs temporary source top location others left)
  (hn : IsName name)
include g hn

theorem components_opened {down : Location} (h : top = location ++ down) :
    Path.components (Path.join temporary name) =
      Path.components source ++ (down ++ [name]).map .name := by
  rw [Path.components_join hn, g.spelled down h]
  simp

variable (hname : IsEntryName name) (hfree : others.find? name = none)
include hname hfree

omit hn hname in
theorem placeAt_new_directory :
    fs.placeAt (top ++ [name]) (.directory .nil) = opened fs top others name := by
  rw [placeAt_concat g.others_eq, Entries.insert_of_find?_eq_none _ hfree, opened]

theorem append_opened
    (hnow : Becomes top location left (others.append (.cons name (.directory .nil) .nil)) now) :
    Grounds (opened fs top others name) temporary source top location
      (others.append (.cons name (.directory .nil) .nil)) now := by
  refine g.append ⟨hn, hname, rfl, trivial, trivial⟩ (fun other hother => ?_) hnow
  by_cases hne : name = other
  · rw [← hne, hfree]
  · simp [Entries.find?_cons, hne] at hother

theorem resolves_opened : ∃ links,
    Resolves (Under (top ++ [name])) (opened fs top others name) (Path.join temporary name) links
      (top ++ [name]) ∧
      (opened fs top others name).root.get? (top ++ [name]) = some (.directory .nil) := by
  obtain ⟨now, hnow⟩ := exists_becomes top location left
    (others.append (.cons name (.directory .nil) .nil))
  have hg := g.append_opened hn hname hfree hnow
  obtain ⟨links, htop⟩ := hg.temporary_leads
  have hget : (opened fs top others name).root.get? (top ++ [name]) = some (.directory .nil) := by
    rw [Node.get?_concat hg.others_eq, Entries.find?_append, hfree]
    simp [Entries.find?_cons]
  have hjoin := htop.join hn hname (kindAt_of_get? hget) (by simp)
  exact ⟨links, resolves_under hjoin (by simp [kindAt_of_get? hget]) hget, hget⟩

/-- The package root is copied as it was before the directory was made. -/
theorem covers_opened : ∃ links now,
    Covers (opened fs top others name) (top ++ [name]) (Path.components (Path.join temporary name))
      links source location now ∧ kept (top ++ [name]) location now = pruned left := by
  obtain ⟨now, hnow⟩ := exists_becomes top location left
    (others.append (.cons name (.directory .nil) .nil))
  have hg := g.append_opened hn hname hfree hnow
  obtain ⟨links, hsource⟩ := hg.source_leads
  obtain ⟨links', htarget, hget⟩ := g.resolves_opened hn hname hfree
  refine ⟨links, now, ?_⟩
  by_cases hin : location <+: top
  · obtain ⟨down, hdown⟩ := hin
    refine ⟨covers_of_spelled hsource hg.left_eq hg.tree hget
      (by rw [← hdown, List.append_assoc]) (by simp) (g.components_opened hn hdown.symm), ?_⟩
    obtain ⟨now', hplace, hkept⟩ :=
      kept_place hfree .nil down location g.tree (g.get?_down hdown.symm)
    rw [Node.place_concat_of_get? (g.get?_down hdown.symm), Entries.insert_of_find?_eq_none _ hfree,
      hnow.inside down hdown.symm] at hplace
    cases hplace
    rw [← hkept, ← hdown, List.append_assoc]
  · have hout : ¬location <+: top ++ [name] := by
      intro hp
      rcases List.prefix_concat_iff.mp hp with heq | hp
      · have hat : top ++ [name] <+: location := heq ▸ List.prefix_rfl
        have hnone := g.absent hfree hat
        simp [Node.kindAt, g.left_eq] at hnone
      · exact hin hp
    refine ⟨covers_of_resolves hsource hg.left_eq hg.tree htarget hget hout, ?_⟩
    rw [hnow.outside hin, kept_eq_pruned g.tree fun rest heq => absurd ⟨rest, heq.symm⟩ hout]

theorem puts_opened (hu : IsUsable (Path.join temporary name)) :
    Puts (pruned left) .nil (top ++ [name]) (opened fs top others name)
      (IsUsable source ∧ Addressable source (pruned left) ∧
        Addressable (Path.join temporary name) (pruned left))
      (copyTree (opened fs top others name) source (Path.join temporary name)) := by
  obtain ⟨now, hnow⟩ := exists_becomes top location left
    (others.append (.cons name (.directory .nil) .nil))
  have hg := g.append_opened hn hname hfree hnow
  obtain ⟨links, htop⟩ := hg.temporary_leads
  obtain ⟨links', htarget, hget⟩ := g.resolves_opened hn hname hfree
  obtain ⟨links'', now', hcovers, hkept⟩ := g.covers_opened hn hname hfree
  have hnew (follow : Bool) : (opened fs top others name).lookup follow (Path.join temporary name) =
      .ok (.present (top ++ [name]) (.directory .nil)) :=
    htop.lookup_entry hn hu hname hg.others_eq
      (by rw [Entries.find?_append, hfree]; simp [Entries.find?_cons]) (by simp)
  have hmake : (opened fs top others name).makeDirectories (Path.join temporary name) =
      (opened fs top others name, .ok ()) :=
    makeDirectories_of_present (by simp [isDirectory, node?, hnew]) (hnew false) (by simp)
  rw [← hkept]
  exact copyTree_puts hget hcovers hmake htarget

omit hn hname in
theorem opened_withEntries (inner : Entries) :
    (opened fs top others name).withEntries (top ++ [name]) inner =
      fs.withEntries top (others.append (.cons name (.directory inner) .nil)) := by
  rw [opened, ← Entries.insert_of_find?_eq_none _ hfree, withEntries_concat g.others_eq,
    Entries.insert_of_find?_eq_none _ hfree]

theorem remove_opened (hu : IsUsable (Path.join temporary name)) (inner : Entries) :
    remove ((opened fs top others name).withEntries (top ++ [name]) inner)
      ⟨Path.join temporary name⟩ = fs := by
  have hplaced : (opened fs top others name).withEntries (top ++ [name]) inner =
      fs.placeAt (top ++ [name]) (.directory inner) := by
    rw [g.opened_withEntries hfree, placeAt_concat g.others_eq,
      Entries.insert_of_find?_eq_none _ hfree]
  obtain ⟨links, htop⟩ := g.temporary_leads
  have hleads := ((htop.avoid_absent (by simp [Node.kindAt, g.others_eq])
    fun _ h => g.absent hfree h).mono fun _ h => .inr h).frame (isClosed_below _)
      (confined_placeAt_self fs (top ++ [name]) (.directory inner))
  rw [remove, hplaced, hleads.removeAll_entry hn hname hu
    (by rw [placeAt_concat g.others_eq, get?_withEntries g.others_eq])
    (Entries.find?_insert_self _ _ _), placeAt_concat g.others_eq,
    withEntries_withEntries g.others_eq, Entries.erase_insert_self hfree,
    withEntries_self g.others_eq]

end

/-- Staging either changes nothing or leaves a copy in the directory for workspaces. -/
theorem stage_eq {fs : FileSystem} {temporary source : String} {top location : Location}
    {others left : Entries} (g : Grounds fs temporary source top location others left)
    (plan : Plan) : (∃ e, stage fs temporary source plan = (fs, .error e)) ∨
    ∃ n, others.find? (nameOf plan n) = none ∧ IsEntryName (nameOf plan n) ∧
      IsUsable (Path.join temporary (nameOf plan n)) ∧
      stage fs temporary source plan = (fs.withEntries top (others.append
        (.cons (nameOf plan n) (.directory (pruned left)) .nil)),
          .ok ⟨Path.join temporary (nameOf plan n)⟩) := by
  obtain ⟨n, hfresh⟩ := freshPath_eq fs temporary plan
  have hn := isName_nameOf plan n
  unfold stage
  simp only [hfresh]
  cases hm : fs.makeDirectory (Path.join temporary (nameOf plan n)) with
  | error cause => exact .inl ⟨_, rfl⟩
  | ok made =>
      obtain ⟨l, hl, rfl⟩ := makeDirectory_ok hm
      obtain ⟨links, htop⟩ := g.temporary_leads
      obtain rfl : l = top ++ [nameOf plan n] := htop.location_eq hn hl
      obtain ⟨parent, others', name, heq, hname, hparent, hfree⟩ := found_of_lookup hl
      obtain ⟨rfl, hlast⟩ := List.append_inj' heq rfl
      obtain rfl : nameOf plan n = name := by simpa using hlast
      obtain rfl : others = others' := by simpa [g.others_eq] using hparent
      have hu := isUsable_of_lookup hl
      obtain ⟨after, hfiles, hafter⟩ := (g.puts_opened hn hname hfree hu).changes
      simp only [g.placeAt_new_directory hfree]
      generalize copyTree (opened fs top others (nameOf plan n)) source _ = result
        at hfiles hafter ⊢
      rcases result with ⟨files, e | count⟩
      · obtain rfl : files = _ := hfiles
        exact .inl ⟨e, by simp only [g.remove_opened hn hname hfree hu]⟩
      · obtain rfl : files = _ := hfiles
        obtain rfl : after = pruned left := (hafter count rfl).1
        exact .inr ⟨n, hfree, hname, hu, by simp only [g.opened_withEntries hfree]⟩

end Grounds

end Workspace

end BuildMatrix
