import BuildMatrix.Proofs.FileSystem.WellFormed
import BuildMatrix.Workspace

/-!
# Copies of the package root

A copy that succeeds is the tree of the package root without what is left out by name and without
the copy itself, in the same order. One that fails has changed no more than the entries of the
directory in which it was made.
-/

namespace BuildMatrix

namespace Entries

def append : Entries → Entries → Entries
  | nil, more => more
  | cons name node rest, more => cons name node (rest.append more)

@[simp] theorem append_nil : ∀ entries : Entries, entries.append nil = entries
  | nil => rfl
  | cons name node rest => by simp [append, append_nil rest]

theorem append_assoc : ∀ a b c : Entries, (a.append b).append c = a.append (b.append c)
  | nil, _, _ => rfl
  | cons name node rest, b, c => by simp [append, append_assoc rest b c]

theorem insert_of_find?_eq_none {name : String} (node : Node) :
    ∀ {entries : Entries}, entries.find? name = none →
      entries.insert name node = entries.append (cons name node nil)
  | nil, _ => rfl
  | cons n old rest, h => by
      by_cases hn : n = name
      · simp [find?_cons, hn] at h
      · simp only [find?_cons, hn, if_false] at h
        simp [insert, hn, append, insert_of_find?_eq_none node h]

theorem find?_append (name : String) (b : Entries) :
    ∀ a : Entries, (a.append b).find? name = (a.find? name).or (b.find? name)
  | nil => rfl
  | cons first node rest => by
      rw [append, find?_cons, find?_cons, find?_append name b rest]
      split <;> simp

def leaves : Entries → Nat
  | nil => 0
  | cons _ (.directory inner) rest => inner.leaves + rest.leaves
  | cons _ _ rest => 1 + rest.leaves

def depth : Entries → Nat
  | nil => 0
  | cons _ (.directory inner) rest => max (inner.depth + 1) rest.depth
  | cons _ _ rest => rest.depth

theorem leaves_append (b : Entries) : ∀ a : Entries, (a.append b).leaves = a.leaves + b.leaves
  | nil => (Nat.zero_add _).symm
  | cons name (.directory inner) rest => by
      rw [append, leaves, leaves, leaves_append b rest, Nat.add_assoc]
  | cons name (.file contents executable) rest => by
      simp only [append, leaves, leaves_append b rest, Nat.add_assoc]
  | cons name (.link target) rest => by
      simp only [append, leaves, leaves_append b rest, Nat.add_assoc]

theorem depth_append (b : Entries) : ∀ a : Entries, (a.append b).depth = max a.depth b.depth
  | nil => (Nat.zero_max _).symm
  | cons name (.directory inner) rest => by
      rw [append, depth, depth, depth_append b rest, Nat.max_assoc]
  | cons name (.file contents executable) rest => by
      simp only [append, depth, depth_append b rest]
  | cons name (.link target) rest => by simp only [append, depth, depth_append b rest]

end Entries

namespace Workspace

open FileSystem

/-- What a copy has of entries that do not have the copy itself. -/
def pruned : Entries → Entries
  | .nil => .nil
  | .cons name (.directory inner) rest =>
    if isSkipped name then pruned rest else .cons name (.directory (pruned inner)) (pruned rest)
  | .cons name node rest => .cons name node (pruned rest)

/-- What a copy that is made at `dest` has of the entries of the directory at a location. -/
def kept (dest : Location) : Location → Entries → Entries
  | _, .nil => .nil
  | location, .cons name (.directory inner) rest =>
    if location ++ [name] = dest ∨ isSkipped name then kept dest location rest
    else .cons name (.directory (kept dest (location ++ [name]) inner)) (kept dest location rest)
  | location, .cons name node rest => .cons name node (kept dest location rest)

/-- The paths at which entries are, or their copies are made, can be looked up. -/
def Addressable (target : String) : Entries → Prop
  | .nil => True
  | .cons name (.directory inner) rest => IsUsable (Path.join target name) ∧
      Addressable (Path.join target name) inner ∧ Addressable target rest
  | .cons name _ rest => IsUsable (Path.join target name) ∧ Addressable target rest

/-- Nothing is in the way of copies of entries: all paths can be looked up, and the fuel is enough
for the directories among them. -/
structure Ready (source target : String) (fuel : Nat) (entries : Entries) : Prop where
  sources : Addressable source entries
  targets : Addressable target entries
  fuel : entries.depth ≤ fuel

theorem outside_concat {dest location : Location} {name : String} (hout : ¬dest <+: location)
    (hne : location ++ [name] ≠ dest) : ¬dest <+: location ++ [name] := by
  intro hp
  rcases List.prefix_concat_iff.mp hp with heq | hp
  · exact hne heq.symm
  · exact hout hp

theorem kept_cons (dest location : Location) (name : String) (node : Node) (rest : Entries) :
    kept dest location (.cons name node rest) =
      (kept dest location (.cons name node .nil)).append (kept dest location rest) := by
  cases node with
  | file contents executable => rfl
  | link target => rfl
  | directory inner =>
      simp only [kept]
      split
      · rfl
      · rfl

theorem kept_append (dest location : Location) (b : Entries) : ∀ a : Entries,
    kept dest location (a.append b) = (kept dest location a).append (kept dest location b)
  | .nil => rfl
  | .cons name node rest => by
      rw [Entries.append, kept_cons, kept_append dest location b rest,
        kept_cons dest location name node rest, Entries.append_assoc]

/-- Every entry is below the root, so none is left out for being the root. -/
theorem pruned_eq_kept (location : Location) :
    ∀ entries : Entries, pruned entries = kept [] location entries
  | .nil => rfl
  | .cons name (.file contents executable) rest => by
      simp only [pruned, kept, pruned_eq_kept location rest]
  | .cons name (.link target) rest => by simp only [pruned, kept, pruned_eq_kept location rest]
  | .cons name (.directory inner) rest => by
      simp only [pruned, kept, pruned_eq_kept location rest,
        pruned_eq_kept (location ++ [name]) inner, List.append_eq_nil_iff, List.cons_ne_nil,
        and_false, false_or]

theorem pruned_append (a b : Entries) : pruned (a.append b) = (pruned a).append (pruned b) := by
  simp only [pruned_eq_kept [], kept_append]

/-- A copy that is not among the entries has all that is not left out by name. -/
theorem kept_eq_pruned {dest : Location} : ∀ {entries : Entries} {location : Location},
    entries.IsTree →
    (∀ down, dest = location ++ down → (Node.directory entries).get? down = none) →
    kept dest location entries = pruned entries
  | .nil, _, _, _ => rfl
  | .cons name node rest, location, ⟨_, _, hnew, hnode, hrest⟩, h => by
      have hothers : kept dest location rest = pruned rest := by
        refine kept_eq_pruned hrest fun down hdown => ?_
        have hnone := h down hdown
        cases down with
        | nil => cases hnone
        | cons n down =>
            rw [Node.get?_directory] at hnone ⊢
            by_cases hn : name = n
            · rw [← hn, hnew, Option.bind_none]
            · rwa [Entries.find?_cons, if_neg hn] at hnone
      cases node with
      | file contents executable => simp only [kept, pruned, hothers]
      | link target => simp only [kept, pruned, hothers]
      | directory inner =>
          have hbelow (down : Location) (hdown : dest = location ++ [name] ++ down) :
              (Node.directory inner).get? down = none := by
            have hnone := h (name :: down) (by simp [hdown])
            rwa [Node.get?_directory, Entries.find?_cons, if_pos rfl, Option.bind_some] at hnone
          have hne : location ++ [name] ≠ dest := by
            rintro rfl
            cases hbelow [] (by simp)
          have hinner : kept dest (location ++ [name]) inner = pruned inner :=
            kept_eq_pruned hnode hbelow
          simp only [kept, pruned, hne, hinner, hothers, false_or]

theorem find?_kept_single {dest location : Location} {name other : String} (node : Node)
    (hne : other ≠ name) : (kept dest location (.cons name node .nil)).find? other = none := by
  cases node with
  | file contents executable => simp [kept, Entries.find?_cons, hne.symm]
  | link target => simp [kept, Entries.find?_cons, hne.symm]
  | directory inner =>
      rw [kept]
      split
      · rfl
      · simp [kept, Entries.find?_cons, hne.symm]

def keptNode (dest location : Location) (name : String) : Node → Option Node
  | .directory inner =>
    if location ++ [name] = dest ∨ isSkipped name then none
    else some (.directory (kept dest (location ++ [name]) inner))
  | node => some node

theorem find?_kept {dest location : Location} (name : String) : ∀ {entries : Entries},
    entries.IsTree → (kept dest location entries).find? name =
      (entries.find? name).bind (keptNode dest location name)
  | .nil, _ => rfl
  | .cons first node rest, ⟨_, _, hnew, _, hrest⟩ => by
      rw [kept_cons, Entries.find?_append, find?_kept name hrest, Entries.find?_cons]
      by_cases hn : first = name
      · subst hn
        rw [hnew, if_pos rfl, Option.bind_none, Option.or_none, Option.bind_some]
        cases node with
        | file contents executable => simp [kept, keptNode, Entries.find?_cons]
        | link target => simp [kept, keptNode, Entries.find?_cons]
        | directory inner =>
            rw [kept, keptNode]
            split
            · rfl
            · simp [Entries.find?_cons]
      · rw [if_neg hn, find?_kept_single node (Ne.symm hn), Option.none_or]

theorem isTree_kept {dest : Location} : ∀ {entries : Entries} {location : Location},
    entries.IsTree → (kept dest location entries).IsTree
  | .nil, _, _ => trivial
  | .cons name node rest, location, ⟨hn, hname, hnew, hnode, hrest⟩ => by
      have hmissing : (kept dest location rest).find? name = none := by
        rw [find?_kept name hrest, hnew, Option.bind_none]
      cases node with
      | file contents executable => exact ⟨hn, hname, hmissing, hnode, isTree_kept hrest⟩
      | link target => exact ⟨hn, hname, hmissing, hnode, isTree_kept hrest⟩
      | directory inner =>
          have hinner : inner.IsTree := hnode
          rw [kept]
          split
          · exact isTree_kept hrest
          · exact ⟨hn, hname, hmissing, isTree_kept hinner, isTree_kept hrest⟩

theorem isTree_pruned {entries : Entries} (ht : entries.IsTree) : (pruned entries).IsTree := by
  rw [pruned_eq_kept []]
  exact isTree_kept ht

section
variable {source target name : String} {fuel : Nat} {node : Node} {inner a b : Entries}

theorem addressable_append : ∀ {a b : Entries}, Addressable target (a.append b) ↔
    Addressable target a ∧ Addressable target b
  | .nil, _ => by rw [Entries.append, Addressable, true_and]
  | .cons _ (.directory _) _, _ => by
      simp only [Entries.append, Addressable, addressable_append, and_assoc]
  | .cons _ (.file ..) _, _ => by
      simp only [Entries.append, Addressable, addressable_append, and_assoc]
  | .cons _ (.link _) _, _ => by
      simp only [Entries.append, Addressable, addressable_append, and_assoc]

theorem Addressable.head {rest : Entries} (h : Addressable target (.cons name node rest)) :
    IsUsable (Path.join target name) := by
  cases node <;> exact h.1

theorem ready_nil : Ready source target fuel .nil := ⟨trivial, trivial, Nat.zero_le fuel⟩

theorem ready_append : Ready source target fuel (a.append b) ↔
    Ready source target fuel a ∧ Ready source target fuel b := by
  constructor
  · rintro ⟨hsources, htargets, hfuel⟩
    rw [addressable_append] at hsources htargets
    rw [Entries.depth_append, Nat.max_le] at hfuel
    exact ⟨⟨hsources.1, htargets.1, hfuel.1⟩, ⟨hsources.2, htargets.2, hfuel.2⟩⟩
  · rintro ⟨ha, hb⟩
    refine ⟨addressable_append.mpr ⟨ha.sources, hb.sources⟩,
      addressable_append.mpr ⟨ha.targets, hb.targets⟩, ?_⟩
    rw [Entries.depth_append, Nat.max_le]
    exact ⟨ha.fuel, hb.fuel⟩

theorem ready_directory : Ready source target fuel (.cons name (.directory inner) .nil) ↔
    IsUsable (Path.join target name) ∧ IsUsable (Path.join source name) ∧
      ∃ less, fuel = less + 1 ∧
        Ready (Path.join source name) (Path.join target name) less inner := by
  constructor
  · rintro ⟨⟨hu, hsources, -⟩, ⟨hu', htargets, -⟩, hfuel⟩
    rw [Entries.depth, Nat.max_le] at hfuel
    obtain ⟨less, rfl⟩ : ∃ less, fuel = less + 1 := ⟨fuel - 1, by omega⟩
    exact ⟨hu', hu, less, rfl, hsources, htargets, by omega⟩
  · rintro ⟨hu', hu, less, rfl, hsources, htargets, hfuel⟩
    refine ⟨⟨hu, hsources, trivial⟩, ⟨hu', htargets, trivial⟩, ?_⟩
    rw [Entries.depth, Nat.max_le]
    exact ⟨by omega, Nat.zero_le _⟩

end

/-- A directory with a path that takes the copies of entries, which it does not have yet. -/
structure Receives (links : Nat) (target : String) (location : Location) (entries before : Entries)
    (fs : FileSystem) : Prop where
  resolves : Resolves (Under location) fs target links location
  directory : fs.root.get? location = some (.directory before)
  missing : ∀ name, entries.find? name ≠ none → before.find? name = none

section
variable {links : Nat} {target name : String} {location : Location} {node new : Node}
  {entries before rest : Entries} {fs : FileSystem}

/-- The entries of the directory may change, as long as what is to come is missing. -/
theorem Receives.withEntries (h : Receives links target location entries before fs)
    {before' : Entries} (hmissing : ∀ name, rest.find? name ≠ none → before'.find? name = none) :
    Receives links target location rest before' (fs.withEntries location before') where
  resolves := h.resolves.frame (isClosed_under _) (confined_withEntries h.directory _)
  directory := get?_withEntries h.directory _
  missing := hmissing

theorem Receives.head_missing
    (h : Receives links target location (.cons name node rest) before fs) :
    before.find? name = none :=
  h.missing name (by simp [Entries.find?_cons])

theorem Receives.tail (h : Receives links target location (.cons name node rest) before fs) :
    Receives links target location rest before fs := by
  refine ⟨h.resolves, h.directory, fun other hother => h.missing other ?_⟩
  rw [Entries.find?_cons]
  split
  · simp
  · exact hother

theorem Receives.append (h : Receives links target location (.cons name node rest) before fs)
    (hnew : rest.find? name = none) {added : Entries}
    (hadded : ∀ other, other ≠ name → added.find? other = none) :
    Receives links target location rest (before.append added)
      (fs.withEntries location (before.append added)) := by
  refine h.withEntries fun other hother => ?_
  have hne : other ≠ name := by
    rintro rfl
    exact hother hnew
  rw [Entries.find?_append, h.tail.missing other hother, hadded other hne, Option.none_or]

/-- A directory that was just made takes everything. -/
theorem Receives.made (h : Receives links target location (.cons name node rest) before fs)
    (hn : IsName name) (hname : IsEntryName name) (inner : Entries) :
    Receives links (Path.join target name) (location ++ [name]) inner .nil
      (fs.withEntries location (before.insert name (.directory .nil))) := by
  have hmade : Receives links target location .nil (before.insert name (.directory .nil))
      (fs.withEntries location (before.insert name (.directory .nil))) :=
    h.withEntries (by simp)
  have hget : (fs.withEntries location (before.insert name (.directory .nil))).root.get?
      (location ++ [name]) = some (.directory .nil) := by
    rw [Node.get?_concat hmade.directory, Entries.find?_insert_self]
  refine ⟨(hmade.resolves.mono ?_).join hn hname (kindAt_of_get? hget) ?_, hget, by simp⟩
  · rintro l ⟨hp, hne⟩
    refine ⟨(List.prefix_append _ _).trans hp, ?_⟩
    rintro rfl
    exact absurd hp.length_le (by simp)
  · simp [Under]

end

section
variable {enter : String → String → FileSystem → FileSystem × Except WorkspaceError Nat}
  {own : List Path.Component} {source target : String}

theorem copyEntry_directory (name : String) (fs : FileSystem) :
    copyEntry enter own source target name .directory fs =
      if Path.components (Path.join source name) = own || isSkipped name then (fs, .ok 0)
      else enter (Path.join source name) (Path.join target name) fs := rfl

theorem copyEntry_file (name : String) (fs : FileSystem) :
    copyEntry enter own source target name .file fs =
      match fs.copyFile (Path.join source name) (Path.join target name) with
      | .error cause => (fs, .error (.copyFile (Path.join source name) cause))
      | .ok fs => (fs, .ok 1) := rfl

theorem copyEntry_link (name : String) (fs : FileSystem) :
    copyEntry enter own source target name .link fs =
      match fs.readLink (Path.join source name) with
      | .error cause => (fs, .error (.readLink cause))
      | .ok link =>
        match fs.makeLink link (Path.join target name) with
        | .error cause => (fs, .error (.makeLink (Path.join target name) cause))
        | .ok fs => (fs, .ok 1) := rfl

end

/-- Copying puts new entries behind those of a directory, and gives the number of files and links
among them. It fails if something is in the way, and only then; the directory has other entries
after that. -/
structure Puts (new before : Entries) (location : Location) (fs : FileSystem) (ready : Prop)
    (result : FileSystem × Except WorkspaceError Nat) : Prop where
  changes : ∃ after, result.1 = fs.withEntries location after ∧
    ∀ count, result.2 = .ok count → after = before.append new ∧ count = new.leaves
  succeeds : (∃ count, result.2 = .ok count) ↔ ready

section
variable {a b new before : Entries} {location : Location} {fs : FileSystem} {ready ready' : Prop}
  {result : FileSystem × Except WorkspaceError Nat}

theorem Puts.congr (h : Puts new before location fs ready result) (hiff : ready ↔ ready') :
    Puts new before location fs ready' result :=
  ⟨h.changes, h.succeeds.trans hiff⟩

theorem Puts.eq (h : Puts new before location fs ready result) (hready : ready) :
    result = (fs.withEntries location (before.append new), .ok new.leaves) := by
  obtain ⟨after, hfiles, hok⟩ := h.changes
  obtain ⟨count, hcount⟩ := h.succeeds.mpr hready
  obtain ⟨rfl, rfl⟩ := hok count hcount
  exact Prod.ext hfiles hcount

variable (hd : fs.root.get? location = some (.directory before))
include hd

theorem Puts.failed (hready : ¬ready) (e : WorkspaceError) :
    Puts new before location fs ready (fs, .error e) where
  changes := ⟨before, (withEntries_self hd).symm, fun _ h => by cases h⟩
  succeeds := iff_of_false nofun hready

theorem Puts.nothing (hready : ready) : Puts .nil before location fs ready (fs, .ok 0) where
  changes := ⟨before, (withEntries_self hd).symm, fun count h => by
    cases h
    exact ⟨(Entries.append_nil before).symm, rfl⟩⟩
  succeeds := iff_of_true ⟨0, rfl⟩ hready

theorem Puts.cons {enter : String → String → FileSystem → FileSystem × Except WorkspaceError Nat}
    {own : List Path.Component} {source target name : String} {kind : EntryKind}
    {rest : List (String × EntryKind)}
    (hfirst : Puts a before location fs ready (copyEntry enter own source target name kind fs))
    (hrest : Puts b (before.append a) location (fs.withEntries location (before.append a)) ready'
      (copyEntries enter own source target rest (fs.withEntries location (before.append a)))) :
    Puts (a.append b) before location fs (ready ∧ ready')
      (copyEntries enter own source target ((name, kind) :: rest) fs) := by
  obtain ⟨⟨after, hfiles, hok⟩, hsucceeds⟩ := hfirst
  rw [copyEntries]
  generalize copyEntry enter own source target name kind fs = first at hfiles hok hsucceeds
  rcases first with ⟨files, e | count⟩
  · refine ⟨⟨after, hfiles, fun _ h => by cases h⟩, iff_of_false nofun fun h => ?_⟩
    obtain ⟨_, hcount⟩ := hsucceeds.mpr h.1
    cases hcount
  · have hready : ready := hsucceeds.mp ⟨count, rfl⟩
    obtain ⟨rfl, rfl⟩ := hok count rfl
    obtain rfl : files = _ := hfiles
    obtain ⟨⟨after, hfiles, hok⟩, hsucceeds⟩ := hrest
    rw [withEntries_withEntries hd] at hfiles
    simp only
    generalize copyEntries enter own source target rest _ = others at hfiles hok hsucceeds
    rcases others with ⟨files, e | further⟩
    · refine ⟨⟨after, hfiles, fun _ h => by cases h⟩, iff_of_false nofun fun h => ?_⟩
      obtain ⟨_, hcount⟩ := hsucceeds.mpr h.2
      cases hcount
    · have hready' : ready' := hsucceeds.mp ⟨further, rfl⟩
      obtain ⟨rfl, rfl⟩ := hok further rfl
      refine ⟨⟨_, hfiles, fun _ h => ?_⟩, iff_of_true ⟨_, rfl⟩ ⟨hready, hready'⟩⟩
      cases h
      exact ⟨Entries.append_assoc _ _ _, (Entries.leaves_append _ _).symm⟩

end

/-- A copied entry is the first of the pruned ones. -/
theorem insert_append_pruned {name : String} {before : Entries} (h : before.find? name = none)
    (node : Node) (more : Entries) :
    (before.insert name node).append more = before.append (.cons name node more) := by
  rw [Entries.insert_of_find?_eq_none _ h, Entries.append_assoc]
  rfl

end Workspace

end BuildMatrix
