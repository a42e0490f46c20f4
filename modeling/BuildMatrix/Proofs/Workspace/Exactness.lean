import BuildMatrix.Proofs.Workspace.Inside
import BuildMatrix.Proofs.Workspace.Kept
import BuildMatrix.Proofs.Workspace.Termination

/-!
# What a copy holds

A copy holds what is below the directory that is copied, except for itself and for directories with
names that are left out. The directory is as before, apart from the copy in it, and no more
directories are entered within each other than it has.
-/

namespace BuildMatrix

open FileSystem

namespace Workspace

/-- The destination is not in the directory that is copied, or its path is that of the directory
with names behind it. -/
def Placed (source target : String) (origin dest : Location) : Prop :=
  ¬origin <+: dest ∨ ∃ down, down ≠ [] ∧ dest = origin ++ down ∧
    Path.components target = Path.components source ++ down.map .name

structure Transfer (before made : FileSystem) (source target : String) (origin dest : Location) :
    Prop where
  tree : before.root.IsTree
  source_eq : ∃ entries, before.lookup true source = .ok (.present origin (.directory entries))
  makes : before.makeDirectories target = (made, .ok ())
  target_eq : made.lookup true target = .ok (.present dest (.directory .nil))
  alone : ∀ down, ¬dest <+: origin ++ down → before.root.kindAt (origin ++ down) = none →
    made.root.kindAt (origin ++ down) = none
  placed : Placed source target origin dest

def Passable (before : FileSystem) (source target : String) (origin dest : Location) : Prop :=
  ∀ down, down ≠ [] → before.root.bareAt (origin ++ down) ≠ none →
    Taken before.root origin dest down →
      IsUsable (down.foldl Path.join source) ∧ IsUsable (down.foldl Path.join target)

/-- What is copied of the directory at `origin`, and nothing else, is at `dest`. The files and links
among it are counted, and the directory is as before. -/
structure Copied (before after : FileSystem) (origin dest : Location) (count : Nat) : Prop where
  copied : ∀ down node, after.root.bareAt (dest ++ down) = some node ↔
    before.root.bareAt (origin ++ down) = some node ∧ Taken before.root origin dest down
  counted : ∃ found : Finset Location, found.card = count ∧
    ∀ down, down ∈ found ↔ after.root.HasLeaf (dest ++ down)
  source_same : ∀ down, ¬dest <+: origin ++ down →
    after.root.bareAt (origin ++ down) = before.root.bareAt (origin ++ down)

namespace Transfer

variable {before made : FileSystem} {source target : String} {origin dest : Location}
  (h : Transfer before made source target origin dest)
include h

theorem made_eq : (before.makeDirectories target).1 = made := by
  rw [h.makes]

theorem isTree_made : made.root.IsTree :=
  h.made_eq ▸ isTree_makeDirectories h.tree target

theorem dest_eq : made.root.get? dest = some (.directory .nil) := found_of_lookup h.target_eq

theorem bareAt_made {down : Location} (hout : ¬dest <+: origin ++ down) :
    made.root.bareAt (origin ++ down) = before.root.bareAt (origin ++ down) := by
  cases hbare : before.root.bareAt (origin ++ down) with
  | some node => exact h.made_eq ▸ bareAt_makeDirectories hbare target
  | none =>
      have hkind := h.alone down hout (by rw [Node.kindAt_eq_bareAt, hbare, Option.map_none])
      rwa [Node.kindAt_eq_bareAt, Option.map_eq_none_iff] at hkind

theorem kindAt_made {down : Location} (hout : ¬dest <+: origin ++ down) :
    made.root.kindAt (origin ++ down) = before.root.kindAt (origin ++ down) := by
  rw [Node.kindAt_eq_bareAt, h.bareAt_made hout, ← Node.kindAt_eq_bareAt]

theorem taken_made_iff {down : Location} :
    Taken made.root origin dest down ↔ Taken before.root origin dest down :=
  ⟨fun htaken => htaken.congr fun _ hout => (h.kindAt_made hout).symm,
    fun htaken => htaken.congr fun _ hout => h.kindAt_made hout⟩

theorem exists_covers : ∃ links entries,
    Covers made dest (Path.components target) links source origin entries := by
  obtain ⟨old, hsource⟩ := h.source_eq
  obtain ⟨links, hleads⟩ := leads_of_walk (walk_of_lookup hsource)
  obtain ⟨links', hleads'⟩ := leads_of_walk (walk_of_lookup h.target_eq)
  have hextends : Extends before made := h.made_eq ▸ extends_makeDirectories before target
  have hs : Resolves (fun _ => False) made source links origin := ⟨id, hextends.leads hleads⟩
  have htarget : Resolves (fun _ => False) made target links' dest := ⟨id, hleads'⟩
  obtain ⟨entries, hd⟩ := get?_of_kindAt
    (hextends.kept _ _ (kindAt_of_get? (found_of_lookup hsource)))
  have ht : entries.IsTree := h.isTree_made.get? hd
  refine ⟨links, entries, ?_⟩
  rcases h.placed with hout | ⟨down, hne, hdown, hspelled⟩
  · exact covers_of_resolves hs hd ht htarget h.dest_eq hout
  · exact covers_of_spelled hs hd ht h.dest_eq hdown hne hspelled

theorem exists_resolves : ∃ links, Resolves (Under dest) made target links dest := by
  obtain ⟨links, hleads⟩ := leads_of_walk (walk_of_lookup h.target_eq)
  have htarget : Resolves (fun _ => False) made target links dest := ⟨id, hleads⟩
  exact ⟨links, resolves_under htarget (by simp [kindAt_of_get? h.dest_eq]) h.dest_eq⟩

section
variable {links : Nat} {entries : Entries}
  (hc : Covers made dest (Path.components target) links source origin entries)
include hc

theorem bareAt_kept_iff (down : Location) (node : Node) :
    (Node.directory (kept dest origin entries)).bareAt down = some node ↔
      before.root.bareAt (origin ++ down) = some node ∧ Taken before.root origin dest down := by
  rw [bareAt_kept (kindAt_of_get? h.dest_eq) down hc.directory hc.tree hc.outside,
    h.taken_made_iff]
  exact and_congr_left fun htaken => by rw [h.bareAt_made htaken.outside]

theorem addressable_iff : Addressable source (kept dest origin entries) ∧
    Addressable target (kept dest origin entries) ↔ Passable before source target origin dest := by
  have hsome (down : Location) :
      (Node.directory (kept dest origin entries)).bareAt down ≠ none ↔
        before.root.bareAt (origin ++ down) ≠ none ∧ Taken before.root origin dest down := by
    simp only [Option.ne_none_iff_exists', h.bareAt_kept_iff hc, exists_and_right]
  have ht : (kept dest origin entries).IsTree := isTree_kept hc.tree
  constructor
  · rintro ⟨hsources, htargets⟩ down hne hbefore htaken
    have hdown := (hsome down).mpr ⟨hbefore, htaken⟩
    exact ⟨hsources.isUsable_foldl hne hdown, htargets.isUsable_foldl hne hdown⟩
  · intro hpassable
    have husable (down : Location) (hne : down ≠ [])
        (hdown : (Node.directory (kept dest origin entries)).bareAt down ≠ none) :
        IsUsable (down.foldl Path.join source) ∧ IsUsable (down.foldl Path.join target) := by
      obtain ⟨hbefore, htaken⟩ := (hsome down).mp hdown
      exact hpassable down hne hbefore htaken
    exact ⟨addressable_of ht fun down hne hdown => (husable down hne hdown).1,
      addressable_of ht fun down hne hdown => (husable down hne hdown).2⟩

/-- What is kept is not deeper than the directory. -/
theorem depth_lt {fuel : Nat} (hfuel : ∀ down,
    before.root.kindAt (origin ++ down) = some .directory → down.length < fuel) :
    ∃ less, fuel = less + 1 ∧ (kept dest origin entries).depth ≤ less := by
  have hlength (down : Location) (inner : Entries)
      (hdown : (Node.directory (kept dest origin entries)).get? down = some (.directory inner)) :
      down.length < fuel := by
    have hbare : (Node.directory (kept dest origin entries)).bareAt down =
        some (.directory .nil) := by
      rw [Node.bareAt, hdown]
      rfl
    have hbefore := ((h.bareAt_kept_iff hc down _).mp hbare).1
    exact hfuel down (by rw [Node.kindAt_eq_bareAt, hbefore]; rfl)
  have hpos : 0 < fuel := hlength [] _ (Node.get?_nil _)
  refine ⟨fuel - 1, by omega, Entries.depth_le (isTree_kept hc.tree) fun down inner hdown => ?_⟩
  exact Nat.le_sub_one_of_lt (hlength down inner hdown)

theorem copied : Copied before (made.withEntries dest (kept dest origin entries)) origin dest
    (kept dest origin entries).leaves where
  copied down node := by
    rw [Node.bareAt_append (get?_withEntries h.dest_eq _), h.bareAt_kept_iff hc]
  counted := by
    have ht : (kept dest origin entries).IsTree := isTree_kept hc.tree
    obtain ⟨found, hcard, hfound⟩ := Entries.exists_leaves ht
    refine ⟨found, hcard, fun down => ?_⟩
    rw [hfound, Node.HasLeaf, Node.HasLeaf, Node.get?_append, get?_withEntries h.dest_eq,
      Option.bind_some]
  source_same down hout := by
    rw [FileSystem.withEntries, placeAt, Node.bareAt_place hout, h.bareAt_made hout]

end

end Transfer

section
variable {before : FileSystem} {source target : String} {origin dest : Location}
  {entries : Entries} (ht : before.root.IsTree)
  (hsource : before.lookup true source = .ok (.present origin (.directory entries)))
  (hplaced : Placed source target origin dest)
include ht hsource hplaced

theorem transfer_of_present
    (htarget : before.lookup true target = .ok (.present dest (.directory .nil))) :
    Transfer before before source target origin dest := by
  obtain ⟨links, hleads⟩ := leads_of_walk (walk_of_lookup htarget)
  obtain ⟨hd, place, hl, hplace⟩ := isDirectory_of_leads (isUsable_of_lookup htarget) hleads
    (kindAt_of_get? (found_of_lookup htarget))
  exact ⟨ht, ⟨entries, hsource⟩, makeDirectories_of_present hd hl hplace, htarget,
    fun _ _ hnone => hnone, hplaced⟩

theorem transfer_of_absent (htarget : before.lookup false target = .ok (.absent dest)) :
    Transfer before (before.placeAt dest (.directory .nil)) source target origin dest := by
  have hadds : Adds before dest (.directory .nil) (before.placeAt dest (.directory .nil)) :=
    adds_of_absent htarget (.inr rfl)
  obtain ⟨links, hleads⟩ := leads_of_walk_absent (walk_of_lookup htarget) hadds.extends.kept
    (kindAt_of_get? hadds.get?_self) nofun
  refine ⟨ht, ⟨entries, hsource⟩, makeDirectories_of_absent htarget,
    lookup_of_leads (isUsable_of_lookup htarget) hleads hadds.get?_self, fun down hout hnone => ?_,
    hplaced⟩
  have hne : origin ++ down ≠ dest := by
    rintro rfl
    exact hout List.prefix_rfl
  rw [hadds.kindAt_of_ne hne, hnone]

end

theorem copyTree_ok_iff {before made : FileSystem} {source target : String}
    {origin dest : Location} (h : Transfer before made source target origin dest) :
    (∃ count, (copyTree before source target).2 = .ok count) ↔
      Passable before source target origin dest := by
  obtain ⟨links, entries, hc⟩ := h.exists_covers
  obtain ⟨links', htarget⟩ := h.exists_resolves
  obtain ⟨_, hsource⟩ := h.source_eq
  have hu : IsUsable source := isUsable_of_lookup hsource
  rw [(copyTree_puts h.dest_eq hc h.makes htarget).succeeds, and_iff_right hu,
    h.addressable_iff hc]

/-- Copying a directory ends: more fuel changes nothing. If the paths can be looked up, it ends with
the copy, which has every entry that is not left out by its name or for being of the copy, with
their count and no change of the directory, and it takes no more fuel than the directories are
deep. Otherwise it fails. -/
theorem copyTree_exact {before made : FileSystem} {source target : String} {origin dest : Location}
    (h : Transfer before made source target origin dest) :
    (∀ fuel, pathLimit ≤ fuel → copyWithin (Path.components target) fuel source target before =
      copyTree before source target) ∧
    (Passable before source target origin dest → ∃ after count,
      copyTree before source target = (after, .ok count) ∧
        Copied before after origin dest count ∧
        ∀ fuel, (∀ down, before.root.kindAt (origin ++ down) = some .directory →
          down.length < fuel) →
            copyWithin (Path.components target) fuel source target before =
              (after, .ok count)) ∧
    (¬Passable before source target origin dest →
      ∃ e, (copyTree before source target).2 = .error e) := by
  obtain ⟨links, entries, hc⟩ := h.exists_covers
  obtain ⟨links', htarget⟩ := h.exists_resolves
  obtain ⟨_, hsource⟩ := h.source_eq
  have hu : IsUsable source := isUsable_of_lookup hsource
  refine ⟨fun _ => copyWithin_of_le h.tree, fun hpassable => ?_, fun hpassable => ?_⟩
  · obtain ⟨hsources, htargets⟩ := (h.addressable_iff hc).mpr hpassable
    refine ⟨_, _, (copyTree_puts h.dest_eq hc h.makes htarget).eq ⟨hu, hsources, htargets⟩,
      h.copied hc, fun fuel hfuel => ?_⟩
    obtain ⟨less, hless, hdepth⟩ := h.depth_lt hc hfuel
    exact (copyWithin_spec h.dest_eq hc h.makes htarget fuel).eq
      ⟨hu, less, hless, hsources, htargets, hdepth⟩
  · cases hresult : (copyTree before source target).2 with
    | error e => exact ⟨e, rfl⟩
    | ok count => exact absurd (copyTree_ok_iff h |>.mp ⟨count, hresult⟩) hpassable

/-- A package with a link, build output, and files with names of directories that are left out. -/
def packageEntries : Entries :=
  .cons "setup.py" (.file [0x31] true) <|
    .cons "current" (.link "src") <|
      .cons "build" (.directory (.cons "lib.py" (.file [0x32] false) .nil)) <|
        .cons "src" (.directory (.cons "build" (.file [0x33] false) <|
          .cons "old.egg-info" (.directory (.cons "links" (.link "..") .nil)) <|
            .cons "new.egg-info" (.link "old.egg-info") .nil)) .nil

def packageHost : FileSystem := ⟨.directory (.cons "pkg" (.directory packageEntries) .nil), []⟩

theorem passable_package : Passable packageHost "/pkg" "/pkg/out" ["pkg"] ["pkg", "out"] := by
  have hentries : ∀ entry ∈ Node.entriesDescendants [] packageEntries,
      IsUsable (entry.1.foldl Path.join "/pkg") ∧ IsUsable (entry.1.foldl Path.join "/pkg/out") := by
    decide +kernel
  have htree : packageEntries.IsTree := by decide +kernel
  intro down hne hbefore _
  have hbelow : (Node.directory packageEntries).bareAt down ≠ none := hbefore
  obtain ⟨node, hget⟩ := Option.ne_none_iff_exists'.mp (mt Option.map_eq_none_iff.mpr hbelow)
  exact hentries (down, node)
    ((Node.mem_entriesDescendants packageEntries [] htree _ _).mpr ⟨down, hne, rfl, hget⟩)

theorem copyTree_exact_package : ∃ after,
    copyTree packageHost "/pkg" "/pkg/out" = (after, .ok 4) ∧
      Copied packageHost after ["pkg"] ["pkg", "out"] 4 := by
  have htransfer : Transfer packageHost _ "/pkg" "/pkg/out" ["pkg"] ["pkg", "out"] :=
    transfer_of_absent (by decide +kernel) rfl
      (.inr ⟨["out"], by decide, rfl, by decide +kernel⟩) rfl
  obtain ⟨after, count, hcopy, hcopied, -⟩ := (copyTree_exact htransfer).2.1 passable_package
  have hcount : (copyTree packageHost "/pkg" "/pkg/out").2 = .ok 4 := by decide +kernel
  rw [hcopy] at hcount
  cases hcount
  exact ⟨after, hcopy, hcopied⟩

def nested : Nat → Entries
  | 0 => .nil
  | n + 1 => .cons "d" (.directory (nested n)) .nil

def nestedHost (n : Nat) : FileSystem :=
  ⟨.directory (.cons "a" (.directory (nested n)) (.cons "t" (.directory .nil) .nil)), []⟩

theorem isTree_nested (n : Nat) : (nested n).IsTree := by
  induction n with
  | zero => trivial
  | succ n ih => exact ⟨by decide, by decide, rfl, ih, trivial⟩

theorem depth_nested (n : Nat) : (nested n).depth = n := by
  induction n with
  | zero => rfl
  | succ n ih => simp [nested, Entries.depth, ih]

theorem kept_nested (n : Nat) (location : Location) :
    kept ["t"] ("a" :: location) (nested n) = nested n := by
  induction n generalizing location with
  | zero => rfl
  | succ n ih =>
      have hskip : isSkipped "d" = false := by decide
      simp [nested, kept, hskip, ih]

/-- Directories that are as many within each other as a path may be long are not copied. -/
theorem copyTree_nested {n : Nat} (hn : pathLimit ≤ n) (count : Nat) :
    (copyTree (nestedHost n) "/a" "/t").2 ≠ .ok count := by
  intro hok
  have htree : (nestedHost n).root.IsTree :=
    ⟨by decide, by decide, rfl, isTree_nested n, by decide, by decide, rfl, trivial, trivial⟩
  have h : Transfer (nestedHost n) _ "/a" "/t" ["a"] ["t"] :=
    transfer_of_present htree rfl (.inl (by decide)) rfl
  obtain ⟨links, entries, hc⟩ := h.exists_covers
  obtain ⟨links', htarget⟩ := h.exists_resolves
  obtain rfl : nested n = entries := Node.directory.inj (Option.some.inj hc.directory)
  obtain ⟨hu, hsources, -⟩ :=
    (copyTree_puts h.dest_eq hc h.makes htarget).succeeds.mp ⟨count, hok⟩
  have hdepth := depth_kept hc.tree hu hsources
  rw [kept_nested, depth_nested] at hdepth
  omega

def occupiedHost : FileSystem :=
  ⟨.directory <| .cons "a" (.directory .nil) <|
    .cons "t" (.directory (.cons "old" (.file [0x30] false) .nil)) <|
      .cons "f" (.file [] false) .nil, []⟩

/-- Directories that are too many within each other are not copied. What a destination has before
stays in it. A directory that is made above a destination is one of the directory that is copied. No
directory is made below a file. -/
theorem copyTree_limits :
    ((nested pathLimit).IsTree ∧ ∀ count,
      (copyTree (nestedHost pathLimit) "/a" "/t").2 ≠ .ok count) ∧
    ((copyTree occupiedHost "/a" "/t").2 = .ok 0 ∧
      occupiedHost.root.kindAt ["a", "old"] = none ∧
      (copyTree occupiedHost "/a" "/t").1.root.kindAt ["t", "old"] = some .file) ∧
    (Path.components "/a/x/y" = Path.components "/a" ++ [.name "x", .name "y"] ∧
      occupiedHost.root.kindAt ["a", "x"] = none ∧
      (copyTree occupiedHost "/a" "/a/x/y").2 = .ok 0 ∧
      (copyTree occupiedHost "/a" "/a/x/y").1.root.kindAt ["a", "x"] = some .directory ∧
      (copyTree occupiedHost "/a" "/a/x/y").1.root.kindAt ["a", "x", "y", "x"] =
        some .directory) ∧
    (copyTree occupiedHost "/a" "/f/t").2 = .error (.makeDirectory "/f/t" .notDirectory) :=
  ⟨⟨isTree_nested pathLimit, copyTree_nested le_rfl⟩, by decide +kernel, by decide +kernel,
    by decide +kernel⟩

end Workspace

end BuildMatrix
