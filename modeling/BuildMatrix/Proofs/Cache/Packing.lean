import BuildMatrix.Proofs.Cache.Files
import BuildMatrix.Proofs.Text.Utf8

/-!
# Directories that are packed

A directory is packed path by path: each directory and each regular file below it is opened at the
path to which the names that lead to it are joined. Packing fails if one of these paths cannot be
used. Otherwise the archive is that of the tree, and the fuel plays no part.
-/

namespace BuildMatrix

open FileSystem

namespace Node

/-- The paths of the directories and the regular files of a tree can be used. -/
def Openable (node : Node) (path : String) : Prop :=
  ∀ location found, node.get? location = some found → (∀ target, found ≠ .link target) →
    IsUsable (location.foldl Path.join path)

theorem openable_of_bare {node : Node} {path : String} (hlink : ∀ target, node ≠ .link target)
    (hbelow : ∀ name rest, node.get? (name :: rest) = none) :
    node.Openable path ↔ IsUsable path := by
  constructor
  · intro h
    exact h [] _ rfl hlink
  · intro h location found hget _
    cases location with
    | nil => exact h
    | cons name rest =>
        rw [hbelow name rest] at hget
        cases hget

theorem openable_file {contents : Bytes} {executable : Bool} {path : String} :
    (file contents executable).Openable path ↔ IsUsable path :=
  openable_of_bare (by simp) fun _ _ => rfl

theorem openable_link (target path : String) : (link target).Openable path := by
  intro location found hget hlink
  cases location with
  | nil => exact absurd (Option.some.inj hget).symm (hlink target)
  | cons name rest => cases hget

theorem openable_nil {path : String} : (directory .nil).Openable path ↔ IsUsable path :=
  openable_of_bare (by simp) fun _ _ => rfl

theorem Openable.isUsable {entries : Entries} {path : String}
    (h : (directory entries).Openable path) : IsUsable path := h [] _ rfl (by simp)

theorem openable_cons {name path : String} {node : Node} {rest : Entries}
    (hnew : rest.find? name = none) : (directory (.cons name node rest)).Openable path ↔
      node.Openable (Path.join path name) ∧ (directory rest).Openable path := by
  constructor
  · intro h
    refine ⟨fun location found hget hlink => ?_, fun location found hget hlink => ?_⟩
    · exact h (name :: location) found
        ((get?_cons_entries hnew (by simp)).mpr (.inl ⟨location, rfl, hget⟩)) hlink
    · by_cases hne : location = []
      · subst hne
        exact h.isUsable
      · exact h location found ((get?_cons_entries hnew hne).mpr (.inr hget)) hlink
  · rintro ⟨hfirst, hothers⟩ location found hget hlink
    by_cases hne : location = []
    · subst hne
      exact hothers.isUsable
    · rcases (get?_cons_entries hnew hne).mp hget with ⟨more, rfl, hmore⟩ | hrest
      · exact hfirst more found hmore hlink
      · exact hothers location found hrest hlink

theorem openable_of_descendants {entries : Entries} {path : String} (ht : entries.IsTree)
    (hpath : IsUsable path)
    (h : ∀ entry ∈ entriesDescendants [] entries, IsUsable (entry.1.foldl Path.join path)) :
    (directory entries).Openable path := by
  intro location found hget _
  by_cases hne : location = []
  · subst hne
    exact hpath
  · exact h (location, found)
      ((mem_entriesDescendants entries [] ht location found).mpr ⟨location, hne, rfl, hget⟩)

end Node

namespace Archive

open Node

/-- Files are collected under a condition, and a path is at fault without it. -/
structure Collects {α : Type} (ready : Prop) (found : α) (result : Except ArchiveError α) :
    Prop where
  collected : ready → result = .ok found
  failed : ¬ready → ∃ path cause, result = .error (.unreadable path cause) ∧ ¬IsUsable path

section
variable {α β : Type} {ready ready' : Prop} {found : α} {result : Except ArchiveError α}

theorem Collects.congr (h : Collects ready found result) (hiff : ready ↔ ready') :
    Collects ready' found result :=
  ⟨fun hready => h.collected (hiff.mpr hready), fun hready => h.failed (mt hiff.mp hready)⟩

theorem Collects.map (h : Collects ready found result) (f : α → β) :
    Collects ready (f found) (result.map f) where
  collected hready := by
    rw [h.collected hready]
    rfl
  failed hready := by
    obtain ⟨path, cause, hresult, hu⟩ := h.failed hready
    exact ⟨path, cause, by rw [hresult]; rfl, hu⟩

theorem Collects.ok_iff (h : Collects ready found result) {other : α} :
    result = .ok other ↔ ready ∧ other = found := by
  by_cases hready : ready
  · simp [h.collected hready, hready, eq_comm]
  · obtain ⟨path, cause, hresult, -⟩ := h.failed hready
    simp [hresult, hready]

/-- The files of an entry stand before those of the entries behind it. -/
theorem Collects.cons {enter : String → Location → Except ArchiveError (List ArchivedFile)}
    {fs : FileSystem} {path name : String} {location : Location} {kind : EntryKind}
    {kinds : List (String × EntryKind)} {first others : List ArchivedFile}
    (h : Collects ready first
      (collectEntry enter fs (Path.join path name) (location ++ [name]) kind))
    (h' : Collects ready' others (collectEntries enter fs path location kinds)) :
    Collects (ready ∧ ready') (first ++ others)
      (collectEntries enter fs path location ((name, kind) :: kinds)) := by
  rw [collectEntries]
  constructor
  · rintro ⟨hready, hready'⟩
    rw [h.collected hready, h'.collected hready']
    rfl
  · intro hnot
    by_cases hready : ready
    · obtain ⟨below, cause, hresult, hu⟩ := h'.failed fun hready' => hnot ⟨hready, hready'⟩
      rw [h.collected hready, hresult]
      exact ⟨below, cause, rfl, hu⟩
    · obtain ⟨below, cause, hresult, hu⟩ := h.failed hready
      rw [hresult]
      exact ⟨below, cause, rfl, hu⟩

end

section
variable {fs : FileSystem} {path name : String} {links : Nat} {base location : Location}
  {entries : Entries} (h : Resolves (fun _ => False) fs path links base)
  (hd : fs.root.get? base = some (.directory entries))
include h hd

theorem collects_file (enter : String → Location → Except ArchiveError (List ArchivedFile))
    (hn : IsName name) (hname : IsEntryName name) {contents : Bytes} {executable : Bool}
    (hfind : entries.find? name = some (.file contents executable)) :
    Collects (IsUsable (Path.join path name)) [⟨Text.joinWith "/" location, contents⟩]
      (collectEntry enter fs (Path.join path name) location .file) where
  collected hu := by
    have hread : fs.read (Path.join path name) = .ok contents := by
      rw [FileSystem.read, h.lookup_entry hn hu hname hd hfind (by simp)]
      rfl
    rw [collectEntry, hread]
  failed hu := by
    obtain ⟨e, -, hlookup⟩ := lookup_of_not_isUsable hu (hn.join_ne_empty path) fs
    have hread : fs.read (Path.join path name) = .error e := by
      rw [FileSystem.read, hlookup]
      rfl
    exact ⟨_, e, by rw [collectEntry, hread], hu⟩

/-- Where the entries of a directory are collected, the directory is. There is fuel left if the path
is not too long. -/
theorem collects_within {fuel : Nat} {found : List ArchivedFile} (hne : path ≠ "")
    (hfuel : pathLimit ≤ path.utf8ByteSize + fuel)
    (henter : ∀ less, fuel = less + 1 → IsUsable path →
      Collects ((directory entries).Openable path) found
        (collectEntries (collectWithin fs less) fs path location entries.kinds)) :
    Collects ((directory entries).Openable path) found (collectWithin fs fuel path location) := by
  by_cases hu : IsUsable path
  · obtain ⟨less, rfl⟩ : ∃ less, fuel = less + 1 := ⟨fuel - 1, by have := hu.size; omega⟩
    rw [collectWithin, h.readDirectory_base hu hd]
    exact henter less rfl hu
  · obtain ⟨e, -, hlookup⟩ := lookup_of_not_isUsable hu hne fs
    refine ⟨fun hready => absurd hready.isUsable hu, fun _ => ⟨path, e, ?_, hu⟩⟩
    rw [collectWithin, readDirectory_eq, hlookup]

end

theorem collectEntries_spec {fs : FileSystem} : ∀ (part : Entries) (fuel : Nat)
    {entries : Entries} {path : String} {links : Nat} {base location : Location},
    Resolves (fun _ => False) fs path links base →
    fs.root.get? base = some (.directory entries) → part.IsTree →
    (∀ name node, part.find? name = some node → entries.find? name = some node) →
    IsUsable path → pathLimit ≤ path.utf8ByteSize + (fuel + 1) →
    Collects ((directory part).Openable path)
      ((entriesDescendants location part).filterMap file?)
      (collectEntries (collectWithin fs fuel) fs path location part.kinds)
  | .nil, _, _, _, _, _, _, _, _, _, _, hu, _ =>
      ⟨fun _ => rfl, fun hready => absurd (openable_nil.mpr hu) hready⟩
  | .cons name node rest, fuel, entries, path, links, base, location, h, hd,
      ⟨hn, hname, hnew, hnode, hrest⟩, hpart, hu, hfuel => by
      have hfind : entries.find? name = some node := hpart name node (by simp [Entries.find?_cons])
      have hfirst : Collects (node.Openable (Path.join path name))
          ((file? (location ++ [name], node)).toList ++
            (descendants (location ++ [name]) node).filterMap file?)
          (collectEntry (collectWithin fs fuel) fs (Path.join path name) (location ++ [name])
            node.entryKind) := by
        cases node with
        | file contents executable =>
            exact (collects_file h hd _ hn hname hfind).congr openable_file.symm
        | link target =>
            exact ⟨fun _ => rfl, fun hready => absurd (openable_link target _) hready⟩
        | directory inner =>
            have hinner : fs.root.get? (base ++ [name]) = some (.directory inner) := by
              rw [Node.get?_concat hd, hfind]
            have hjoin := h.join hn hname (kindAt_of_get? hinner) id
            -- The path of a directory below is longer, so it needs less fuel.
            have hlonger := hn.lt_utf8ByteSize_join path
            refine collects_within hjoin hinner (hn.join_ne_empty path) (by omega) ?_
            rintro less rfl hu
            exact collectEntries_spec inner less hjoin hinner hnode (fun _ _ hfound => hfound) hu
              (by omega)
      have hothers : Collects ((directory rest).Openable path)
          ((entriesDescendants location rest).filterMap file?)
          (collectEntries (collectWithin fs fuel) fs path location rest.kinds) :=
        collectEntries_spec rest fuel h hd hrest (Entries.find?_of_tail hnew hpart) hu hfuel
      rw [filterMap_file?_cons]
      exact (hfirst.cons hothers).congr (openable_cons hnew).symm

section
variable {files : FileSystem} {path : String} {tree : Entries}
  (hnode : files.node? path = some (.directory tree)) (ht : tree.IsTree)
include hnode ht

/-- A directory whose paths can be used is packed as its tree, and no other. -/
theorem collects_ofDirectory : Collects ((directory tree).Openable path) (ofNode (directory tree))
    (ofDirectory files path) := by
  obtain ⟨base, hlookup⟩ := exists_lookup_of_node? hnode
  obtain ⟨links, hleads⟩ := leads_of_walk (walk_of_lookup hlookup)
  have hpath := isUsable_of_lookup hlookup
  have hresolves : Resolves (fun _ => False) files path links base := ⟨id, hleads⟩
  have hdirectory : files.isDirectory path := by rw [FileSystem.isDirectory, hnode]
  have hcollects : Collects ((directory tree).Openable path)
      ((entriesDescendants [] tree).filterMap file?) (collectWithin files pathLimit path []) := by
    refine collects_within hresolves (found_of_lookup hlookup) hpath.nonempty
      (Nat.le_add_left _ _) ?_
    rintro less hless hu
    exact collectEntries_spec tree less hresolves (found_of_lookup hlookup) ht
      (fun _ _ hfound => hfound) hu (by omega)
  rw [ofDirectory, if_pos hdirectory]
  exact hcollects.map ofFiles

theorem collects_pack : Collects ((directory tree).Openable path)
    (ofNode (directory tree)).encode (pack files path) :=
  (collects_ofDirectory hnode ht).map encode

end

/-- What is no directory is packed as an empty one. -/
theorem pack_of_not_isDirectory {files : FileSystem} {path : String}
    (h : ¬files.isDirectory path) : pack files path = .ok (Archive.mk []).encode := by
  rw [pack, ofDirectory, if_neg h]
  rfl

def letters (n : Nat) : String := String.ofList (List.replicate n 'n')

theorem utf8ByteSize_letters (n : Nat) : (letters n).utf8ByteSize = n := by
  have hletter : ∀ c ∈ List.replicate n 'n', c.utf8Size = 1 := by
    intro c hc
    rw [List.eq_of_mem_replicate hc]
    rfl
  rw [letters, String.utf8ByteSize_ofList, Utf8.utf8Len_eq_length hletter, List.length_replicate]

theorem isName_letters {n : Nat} (h : 2 < n) (hlimit : n ≤ nameLimit) :
    IsName (letters n) ∧ IsEntryName (letters n) := by
  have hne {name : String} (hsize : name.utf8ByteSize ≤ 2) : letters n ≠ name := by
    intro heq
    have hn := utf8ByteSize_letters n
    rw [heq] at hn
    omega
  have hhere : letters n ≠ "." := hne (by decide)
  have hup : letters n ≠ ".." := hne (by decide)
  refine ⟨⟨hne (by decide), ?_, hhere, hup⟩, hhere, hup, ?_⟩
  · rw [letters, String.toList_ofList, List.mem_replicate]
    simp
  · rw [utf8ByteSize_letters]
    exact hlimit

theorem isName_long : IsName (letters 239) ∧ IsEntryName (letters 239) :=
  isName_letters (n := 239) (by decide) (by decide)

/-- A file below directories with long names. -/
def deepTree : Nat → Entries
  | 0 => .cons "pins" (.file [0x31] false) .nil
  | n + 1 => .cons (letters 239) (.directory (deepTree n)) .nil

theorem isTree_deepTree (n : Nat) : (deepTree n).IsTree := by
  induction n with
  | zero => exact ⟨by decide, by decide, rfl, trivial, trivial⟩
  | succ n ih =>
      exact ⟨isName_long.1, isName_long.2, rfl, ih, trivial⟩

theorem get?_deepTree (n : Nat) :
    (directory (deepTree n)).get? (List.replicate n (letters 239)) =
      some (directory (deepTree 0)) := by
  induction n with
  | zero => rfl
  | succ n ih =>
      have hcons : deepTree (n + 1) = .cons (letters 239) (.directory (deepTree n)) .nil := rfl
      rw [List.replicate_succ, hcons, get?_directory, Entries.find?_cons, if_pos rfl]
      exact ih

def deepHost : FileSystem :=
  ⟨.directory (.cons "a" (.directory (deepTree 18)) (.cons "t" (.directory .nil) .nil)), []⟩

theorem le_utf8ByteSize_deep (n : Nat) (base : String) : base.utf8ByteSize + n * 239 ≤
    ((List.replicate n (letters 239)).foldl Path.join base).utf8ByteSize := by
  induction n generalizing base with
  | zero => exact Nat.le_of_eq (by simp)
  | succ n ih =>
      have hfirst := Path.le_utf8ByteSize_join isName_long.1.isAbsolute_eq base
      have hothers := ih (Path.join base (letters 239))
      rw [utf8ByteSize_letters] at hfirst
      rw [List.replicate_succ, List.foldl_cons]
      omega

/-- The names of the directories have 4302 bytes. -/
theorem pack_deepHost (payload : Bytes) : pack deepHost "/a" ≠ .ok payload := by
  intro hpacked
  have hnode : deepHost.node? "/a" = some (.directory (deepTree 18)) := rfl
  obtain ⟨hopen, -⟩ := (collects_pack hnode (isTree_deepTree 18)).ok_iff.mp hpacked
  have hsize := (hopen _ _ (get?_deepTree 18) (by simp)).size
  have hle := le_utf8ByteSize_deep 18 "/a"
  have hlimit : pathLimit = 4096 := rfl
  omega

end Archive

end BuildMatrix
