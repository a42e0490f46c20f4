import BuildMatrix.Proofs.FileSystem.Operations
import Mathlib.Tactic.ByContra

/-!
# The entries of a directory that a path leads to

A path that leads to a directory is joined with the name of an entry. The joined path is looked up
in this directory, whatever links are on the way to it, and operations on it change this entry.
-/

namespace BuildMatrix

/-- A text that can be the name of an entry. -/
structure IsName (name : String) : Prop where
  nonempty : name ≠ ""
  slash : '/' ∉ name.toList
  here : name ≠ "."
  up : name ≠ ".."

instance (name : String) : Decidable (IsName name) :=
  decidable_of_iff (name ≠ "" ∧ '/' ∉ name.toList ∧ name ≠ "." ∧ name ≠ "..")
    ⟨fun ⟨h, hslash, hhere, hup⟩ => ⟨h, hslash, hhere, hup⟩,
      fun h => ⟨h.nonempty, h.slash, h.here, h.up⟩⟩

namespace IsName

variable {name : String} (h : IsName name)
include h

theorem names_eq : Path.names name = [name] := Path.names_of_not_mem h.slash h.nonempty

theorem isAbsolute_eq : Path.isAbsolute name = false := Path.isAbsolute_of_not_mem h.slash

theorem names_join (base : String) :
    Path.names (Path.join base name) = Path.names base ++ [name] := by
  rw [Path.names_join h.isAbsolute_eq, h.names_eq]

theorem join_ne_empty (base : String) : Path.join base name ≠ "" := by
  intro hempty
  have hnames := h.names_join base
  rw [hempty] at hnames
  exact List.append_ne_nil_of_right_ne_nil _ (by simp) hnames.symm

theorem lt_utf8ByteSize_join (base : String) :
    base.utf8ByteSize < (Path.join base name).utf8ByteSize := by
  have hle := Path.le_utf8ByteSize_join h.isAbsolute_eq base
  have hpos : name.utf8ByteSize ≠ 0 := mt String.utf8ByteSize_eq_zero_iff.mp h.nonempty
  omega

theorem endsInSlash_join (base : String) : Path.endsInSlash (Path.join base name) = false := by
  rw [Path.endsInSlash_join h.isAbsolute_eq h.nonempty]
  simp only [Path.endsInSlash, decide_eq_false_iff_not]
  exact fun hlast => h.slash (List.mem_of_getLast? hlast)

end IsName

namespace Path

/-- The steps of a path are those of its names, behind what tells where it starts. -/
theorem components_eq (path : String) : components path =
    (if isAbsolute path then [.root] else if (names path).head? = some "." then [.here] else []) ++
      (names path).filterMap inner? := by
  unfold components
  simp only
  split
  · rfl
  split
  · next rest h =>
      rw [h]
      rfl
  · next h =>
      have hhead : (names path).head? ≠ some "." := by
        intro hhead
        obtain ⟨rest, hrest⟩ := List.head?_eq_some_iff.mp hhead
        exact h rest hrest
      rw [if_neg hhead, List.nil_append]

theorem filterMap_inner?_names {down : List String} (h : ∀ name ∈ down, IsName name) :
    down.filterMap inner? = down.map .name := by
  induction down with
  | nil => rfl
  | cons name down ih =>
      obtain ⟨hname, hdown⟩ := List.forall_mem_cons.mp h
      simp [inner?, hname.here, hname.up, ih hdown]

theorem components_append {path base : String} {down : List String}
    (habs : isAbsolute path = isAbsolute base) (hnames : names path = names base ++ down)
    (h : ∀ name ∈ down, IsName name) : components path = components base ++ down.map .name := by
  have hhead : (names path).head? = some "." ↔ (names base).head? = some "." := by
    rw [hnames, List.head?_append]
    cases hbase : (names base).head? with
    | some first => simp
    | none =>
        have hdown : down.head? ≠ some "." := fun hd => (h "." (List.mem_of_mem_head? hd)).here rfl
        simp [hdown]
  rw [components_eq, components_eq, habs, if_congr hhead rfl rfl, hnames, List.filterMap_append,
    filterMap_inner?_names h, List.append_assoc]

theorem components_join {name : String} (h : IsName name) (base : String) :
    components (join base name) = components base ++ [.name name] :=
  components_append (isAbsolute_join h.isAbsolute_eq base) (h.names_join base) (by simpa using h)

end Path

namespace FileSystem

open Node (kindAt)

theorem startOf_join {path : String} (h : Path.isAbsolute path = false) (fs : FileSystem)
    (base : String) : fs.startOf (Path.join base path) = fs.startOf base := by
  rw [startOf, startOf, Path.isAbsolute_join h]

theorem Confined.startOf_eq {region : Location → Prop} {fs fs' : FileSystem}
    (h : Confined region fs fs') (path : String) : fs'.startOf path = fs.startOf path := by
  rw [startOf, startOf, h.workingDirectory_eq]

/-- A path leads to a location, with all links followed and outside of a region. -/
structure Resolves (avoid : Location → Prop) (fs : FileSystem) (path : String) (links : Nat)
    (location : Location) : Prop where
  start : ¬avoid (fs.startOf path)
  leads : Leads avoid fs.root linkLimit (fs.startOf path) (Path.names path) links location

section
variable {avoid : Location → Prop} {fs fs' : FileSystem} {base : String} {links : Nat}
  {location : Location}

/-- A path leads to the same location after changes in the region that it avoids. -/
theorem Resolves.frame (h : Resolves avoid fs base links location) (hclosed : IsClosed avoid)
    (hc : Confined avoid fs fs') : Resolves avoid fs' base links location where
  start := by
    rw [hc.startOf_eq]
    exact h.start
  leads := by
    rw [hc.startOf_eq]
    exact (h.leads.frame hclosed hc.kindAt_eq h.start).1

theorem Resolves.mono {avoid' : Location → Prop} (h : Resolves avoid fs base links location)
    (hsub : ∀ l, avoid' l → avoid l) : Resolves avoid' fs base links location :=
  ⟨fun hs => h.start (hsub _ hs), h.leads.mono hsub⟩

/-- What leads to something avoids everything that is not there. -/
theorem Resolves.avoid_absent (h : Resolves avoid fs base links location)
    (hend : fs.root.kindAt location ≠ none) {absent : Location → Prop}
    (habsent : ∀ l, absent l → fs.root.kindAt l = none) :
    Resolves (fun l => avoid l ∨ absent l) fs base links location where
  start := by
    rintro (hs | hs)
    · exact h.start hs
    · exact h.leads.start_present hend (habsent _ hs)
  leads := h.leads.avoid_absent habsent

/-- A joined path is looked up in the directory that its base leads to. -/
theorem Resolves.walk_join (h : Resolves avoid fs base links location) {path : String}
    (hrel : Path.isAbsolute path = false) {follow : Bool}
    (hfollow : Path.names path ≠ [] ∨ follow = true) :
    walk fs.root follow linkLimit (fs.startOf (Path.join base path))
      (Path.names (Path.join base path)) =
        walk fs.root follow links location (Path.names path) := by
  rw [startOf_join hrel, Path.names_join hrel]
  exact h.leads.walk_append hfollow

variable {name : String}

theorem Resolves.lookup_join (h : Resolves avoid fs base links location) (hn : IsName name)
    (hu : IsUsable (Path.join base name)) (follow : Bool) :
    fs.lookup follow (Path.join base name) = walk fs.root follow links location [name] := by
  rw [lookup_eq_walk hu (hn.endsInSlash_join base),
    h.walk_join hn.isAbsolute_eq (by simp [hn.names_eq]), hn.names_eq]

theorem of_walk_single {root : Node} {follow : Bool} {place : Place} (hn : IsName name)
    (h : walk root follow links location [name] = .ok place) :
    IsEntryName name ∧ ∃ entries, root.get? location = some (.directory entries) := by
  have hnames (enter : Location → String → List String → Except FileError Place)
      (h : walkNames root follow enter location [name] = .ok place) :
      IsEntryName name ∧ ∃ entries, root.get? location = some (.directory entries) := by
    simp only [walkNames, hn.here, hn.up, if_false] at h
    split at h
    · next entries he =>
        split at h
        · cases h
        · next hsize => exact ⟨⟨hn.here, hn.up, by omega⟩, entries, he⟩
    · cases h
    · cases h
  cases links with
  | zero => exact hnames _ h
  | succ links => exact hnames _ h

variable {follow : Bool} {place : Place} {entries : Entries}

theorem Resolves.lookup_entry (h : Resolves avoid fs base links location) (hn : IsName name)
    (hu : IsUsable (Path.join base name)) (hname : IsEntryName name)
    (hd : fs.root.get? location = some (.directory entries)) {child : Node}
    (hf : entries.find? name = some child) (hlink : ∀ target, child ≠ .link target) :
    fs.lookup follow (Path.join base name) = .ok (.present (location ++ [name]) child) := by
  rw [h.lookup_join hn hu, walk_down hd hname hf hlink, walk_nil, Node.get?_concat hd, hf]

theorem Resolves.location_eq (h : Resolves avoid fs base links location) (hn : IsName name)
    (hl : fs.lookup false (Path.join base name) = .ok place) :
    place.location = location ++ [name] := by
  rw [h.lookup_join hn (isUsable_of_lookup hl)] at hl
  obtain ⟨hname, entries, hd⟩ := of_walk_single hn hl
  cases hf : entries.find? name with
  | none =>
      rw [walk_missing hd hname hf] at hl
      cases hl
      rfl
  | some child =>
      cases child with
      | link target =>
          rw [walk_link hd hname hf] at hl
          cases hl
          rfl
      | file contents executable =>
          rw [walk_down hd hname hf (by simp), walk_nil, Node.get?_concat hd, hf] at hl
          cases hl
          rfl
      | directory inner =>
          rw [walk_down hd hname hf (by simp), walk_nil, Node.get?_concat hd, hf] at hl
          cases hl
          rfl

theorem Resolves.join (h : Resolves avoid fs base links location) (hn : IsName name)
    (hname : IsEntryName name) (hd : fs.root.kindAt (location ++ [name]) = some .directory)
    (ha : ¬avoid (location ++ [name])) :
    Resolves avoid fs (Path.join base name) links (location ++ [name]) where
  start := by
    rw [startOf_join hn.isAbsolute_eq]
    exact h.start
  leads := by
    rw [startOf_join hn.isAbsolute_eq, hn.names_join]
    exact h.leads.append (.down hname hd (by simp) ha .done)

end

def Under (top location : Location) : Prop := top <+: location ∧ location ≠ top

theorem isClosed_under (top : Location) : IsClosed (Under top) := by
  rintro l l' ⟨hp, hne⟩ hl
  refine ⟨hp.trans hl, ?_⟩
  rintro rfl
  exact hne (hl.eq_of_length_le hp.length_le)

theorem under_concat (top : Location) (name : String) : Under top (top ++ [name]) :=
  ⟨List.prefix_append _ _, by simp⟩

def withEntries (fs : FileSystem) (location : Location) (entries : Entries) : FileSystem :=
  fs.placeAt location (.directory entries)

section
variable {fs : FileSystem} {location : Location} {entries : Entries}
  (hd : fs.root.get? location = some (.directory entries))
include hd

theorem withEntries_self : fs.withEntries location entries = fs := by
  rw [withEntries, placeAt, Node.place_of_get? hd]

theorem get?_withEntries (entries' : Entries) :
    (fs.withEntries location entries').root.get? location = some (.directory entries') := by
  simpa [withEntries, placeAt] using Node.get?_place hd (.directory entries') []

theorem withEntries_withEntries (entries' entries'' : Entries) :
    (fs.withEntries location entries').withEntries location entries'' =
      fs.withEntries location entries'' := by
  simp only [withEntries, placeAt, Node.place_place hd]

theorem placeAt_concat (name : String) (node : Node) :
    fs.placeAt (location ++ [name]) node = fs.withEntries location (entries.insert name node) := by
  simp only [withEntries, placeAt, Node.place_concat_of_get? hd]

/-- Other entries in a directory that was just put into another one. -/
theorem withEntries_concat (name : String) (inner inner' : Entries) :
    (fs.withEntries location (entries.insert name (.directory inner))).withEntries
      (location ++ [name]) inner' =
        fs.withEntries location (entries.insert name (.directory inner')) := by
  rw [withEntries, placeAt_concat (get?_withEntries hd _), Entries.insert_insert,
    withEntries_withEntries hd]

theorem confined_withEntries (entries' : Entries) :
    Confined (Under location) fs (fs.withEntries location entries') where
  workingDirectory_eq := rfl
  kindAt_eq l hl := by
    by_cases hp : location <+: l
    · obtain rfl : l = location := by
        by_contra hne
        exact hl ⟨hp, hne⟩
      rw [kindAt_of_get? hd, kindAt_of_get? (get?_withEntries hd entries')]
      rfl
    · exact Node.kindAt_place hp _ _
  get?_eq l hl := by
    have habove : ¬l <+: location := by
      rintro ⟨rest, rfl⟩
      exact hl (rest ++ ["x"]) (by
        rw [← List.append_assoc]
        exact under_concat _ "x")
    refine Node.get?_place_of_incomparable (fun hp => ?_) habove _ _
    refine hl [] ⟨by simpa using hp, ?_⟩
    rw [List.append_nil]
    rintro rfl
    exact habove List.prefix_rfl

end

theorem lookup_of_not_isUsable {path : String} (h : ¬IsUsable path) (hne : path ≠ "")
    (fs : FileSystem) : ∃ e, e ≠ .missing ∧ ∀ follow, fs.lookup follow path = .error e := by
  by_cases hnul : Char.ofNat 0 ∈ path.toList
  · refine ⟨.nulInName, by simp, fun follow => ?_⟩
    unfold lookup
    rw [if_pos (by simpa using hnul)]
  · refine ⟨.nameTooLong, by simp, fun follow => ?_⟩
    have hsize : path.utf8ByteSize ≥ pathLimit := by
      by_contra hlt
      exact h ⟨hnul, hne, by omega⟩
    have hempty : path.isEmpty = false := by simpa using hne
    unfold lookup
    rw [if_neg (by simpa using hnul), if_neg (by simp [hempty]), if_pos hsize]

section
variable {fs : FileSystem} {base : String} {links : Nat} {location : Location}
  {avoid : Location → Prop} {name : String} {entries : Entries}

theorem Resolves.lookup_base (h : Resolves avoid fs base links location) (hu : IsUsable base)
    (hd : fs.root.get? location = some (.directory entries)) :
    fs.lookup true base = .ok (.present location (.directory entries)) := by
  have hw : walk fs.root true linkLimit (fs.startOf base) (Path.names base) =
      .ok (.present location (.directory entries)) := by
    rw [← List.append_nil (Path.names base), h.leads.walk_append (.inr rfl), walk_nil, hd]
  rw [lookup_of_isUsable hu, Bool.true_or, hw]

theorem Resolves.readDirectory_base (h : Resolves avoid fs base links location)
    (hu : IsUsable base) (hd : fs.root.get? location = some (.directory entries)) :
    fs.readDirectory base = .ok entries := by
  rw [readDirectory_eq, h.lookup_base hu hd]

theorem Resolves.lookup_missing (h : Resolves avoid fs base links location) (hn : IsName name)
    (hname : IsEntryName name) (hu : IsUsable (Path.join base name))
    (hd : fs.root.get? location = some (.directory entries)) (hf : entries.find? name = none)
    (follow : Bool) :
    fs.lookup follow (Path.join base name) = .ok (.absent (location ++ [name])) := by
  rw [h.lookup_join hn hu, walk_missing hd hname hf]
  rfl

/-- What is found of an entry that is not there: nothing, unless its path is of no use. -/
theorem Resolves.lookup_new (h : Resolves avoid fs base links location) (hn : IsName name)
    (hname : IsEntryName name) (hd : fs.root.get? location = some (.directory entries))
    (hf : entries.find? name = none) :
    (IsUsable (Path.join base name) ∧
      ∀ follow, fs.lookup follow (Path.join base name) = .ok (.absent (location ++ [name]))) ∨
    (¬IsUsable (Path.join base name) ∧
      ∃ e, e ≠ .missing ∧ ∀ follow, fs.lookup follow (Path.join base name) = .error e) := by
  by_cases hu : IsUsable (Path.join base name)
  · exact .inl ⟨hu, h.lookup_missing hn hname hu hd hf⟩
  · exact .inr ⟨hu, lookup_of_not_isUsable hu (hn.join_ne_empty base) fs⟩

theorem Resolves.write_new (h : Resolves avoid fs base links location) (hn : IsName name)
    (hname : IsEntryName name) (hd : fs.root.get? location = some (.directory entries))
    (hf : entries.find? name = none) (contents : Bytes) :
    (IsUsable (Path.join base name) ∧ fs.write (Path.join base name) contents =
      .ok (fs.withEntries location (entries.insert name (.file contents false)))) ∨
    (¬IsUsable (Path.join base name) ∧
      ∃ e, fs.write (Path.join base name) contents = .error e) := by
  rcases h.lookup_new hn hname hd hf with ⟨hu, hl⟩ | ⟨hu, e, -, hl⟩
  · refine .inl ⟨hu, ?_⟩
    rw [write_eq, hl, hn.endsInSlash_join, ← placeAt_concat hd]
    rfl
  · exact .inr ⟨hu, e, by rw [write_eq, hl]⟩

theorem Resolves.copyFile_new (h : Resolves avoid fs base links location) (hn : IsName name)
    (hname : IsEntryName name) (hd : fs.root.get? location = some (.directory entries))
    (hf : entries.find? name = none) {source : String} {found : Location} {contents : Bytes}
    {executable : Bool}
    (hsource : fs.lookup true source = .ok (.present found (.file contents executable))) :
    (IsUsable (Path.join base name) ∧ fs.copyFile source (Path.join base name) =
      .ok (fs.withEntries location (entries.insert name (.file contents executable)))) ∨
    (¬IsUsable (Path.join base name) ∧
      ∃ e, fs.copyFile source (Path.join base name) = .error e) := by
  rcases h.write_new hn hname hd hf contents with ⟨hu, hw⟩ | ⟨hu, e, hw⟩
  · refine .inl ⟨hu, ?_⟩
    -- What was written is found, and whether it may be executed is set there.
    have habsent (l : Location) (hp : location ++ [name] <+: l) : fs.root.kindAt l = none := by
      obtain ⟨rest, rfl⟩ := hp
      rw [kindAt, Node.get?_append, Node.get?_concat hd, hf]
      rfl
    have hwritten := ((h.avoid_absent (by simp [kindAt_of_get? hd]) habsent).mono
      fun _ h => .inr h).frame (isClosed_below _)
        (confined_placeAt_self fs (location ++ [name]) (.file contents false))
    rw [placeAt_concat hd] at hwritten
    rw [copyFile_eq, hsource]
    simp only [hw, Except.bind]
    rw [setExecutable_eq, hwritten.lookup_entry hn hu hname (get?_withEntries hd _)
      (Entries.find?_insert_self _ _ _) (by simp)]
    simp only
    rw [placeAt_concat (get?_withEntries hd _), Entries.insert_insert, withEntries_withEntries hd]
  · refine .inr ⟨hu, e, ?_⟩
    rw [copyFile_eq, hsource]
    simp only [hw, Except.bind]

theorem Resolves.makeLink_new (h : Resolves avoid fs base links location) (hn : IsName name)
    (hname : IsEntryName name) (hd : fs.root.get? location = some (.directory entries))
    (hf : entries.find? name = none) (target : String) :
    (IsUsable (Path.join base name) ∧ fs.makeLink target (Path.join base name) =
      .ok (fs.withEntries location (entries.insert name (.link target)))) ∨
    (¬IsUsable (Path.join base name) ∧
      ∃ e, fs.makeLink target (Path.join base name) = .error e) := by
  rcases h.lookup_new hn hname hd hf with ⟨hu, hl⟩ | ⟨hu, e, -, hl⟩
  · exact .inl ⟨hu, by rw [makeLink_eq, hl, ← placeAt_concat hd]⟩
  · exact .inr ⟨hu, e, by rw [makeLink_eq, hl]⟩

theorem Resolves.makeDirectories_new (h : Resolves avoid fs base links location) (hn : IsName name)
    (hname : IsEntryName name) (hd : fs.root.get? location = some (.directory entries))
    (hf : entries.find? name = none) :
    (IsUsable (Path.join base name) ∧ fs.makeDirectories (Path.join base name) =
      (fs.withEntries location (entries.insert name (.directory .nil)), .ok ())) ∨
    (¬IsUsable (Path.join base name) ∧
      ∃ e, fs.makeDirectories (Path.join base name) = (fs, .error e)) := by
  rcases h.lookup_new hn hname hd hf with ⟨hu, hl⟩ | ⟨hu, e, he, hl⟩
  · exact .inl ⟨hu, by rw [makeDirectories_of_absent (hl false), placeAt_concat hd]⟩
  · exact .inr ⟨hu, e, makeDirectories_of_error he hl⟩

end

end FileSystem

end BuildMatrix
