import BuildMatrix.Proofs.FileSystem.Reaching

/-!
# File systems that only grow

Making directories and writing files takes nothing away. Each adds one node without anything below
it, where there was nothing or a file, so every node keeps its kind, and what a path led to is where
it leads afterwards.
-/

namespace BuildMatrix.FileSystem

open Node (kindAt)

/-- Nothing is removed or replaced by a node of another kind, and no links are made. -/
structure Extends (before after : FileSystem) : Prop where
  workingDirectory_eq : after.workingDirectory = before.workingDirectory
  kept : ∀ location kind, before.root.kindAt location = some kind →
    after.root.kindAt location = some kind
  links : ∀ location target, after.root.kindAt location = some (.link target) →
    before.root.kindAt location = some (.link target)

def IsLeaf (node : Node) : Prop :=
  (∃ contents executable, node = .file contents executable) ∨ node = .directory .nil

/-- A leaf is put where there was nothing, or a file in the place of a file. -/
structure Adds (before : FileSystem) (location : Location) (new : Node) (after : FileSystem) :
    Prop where
  eq : after = before.placeAt location new
  found : ∃ place, place.location = location ∧ Found before.root place
  leaf : IsLeaf new
  old : ∀ kind, before.root.kindAt location = some kind → kind = .file ∧ new.kind = .file

theorem IsLeaf.get?_eq_none {node : Node} (h : IsLeaf node) {rest : Location} (hne : rest ≠ []) :
    node.get? rest = none := by
  obtain ⟨name, rest, rfl⟩ := List.exists_cons_of_ne_nil hne
  rcases h with ⟨contents, executable, rfl⟩ | rfl
  · exact Node.get?_file contents executable name rest
  · exact Node.get?_nil_directory _ hne

theorem IsLeaf.kind_ne_link {node : Node} (h : IsLeaf node) (target : String) :
    node.kind ≠ .link target := by
  rcases h with ⟨contents, executable, rfl⟩ | rfl
  · exact Node.Kind.noConfusion
  · exact Node.Kind.noConfusion

theorem kind_of_get? {node child : Node} {rest : Location} (hne : rest ≠ [])
    (h : node.get? rest = some child) : node.kind = .directory := by
  obtain ⟨name, rest, rfl⟩ := List.exists_cons_of_ne_nil hne
  cases node with
  | file contents executable => cases h
  | link target => cases h
  | directory entries => rfl

section
variable {before after : FileSystem} {location : Location} {new : Node}

theorem Adds.get?_append (h : Adds before location new after) (rest : Location) :
    after.root.get? (location ++ rest) = new.get? rest := by
  obtain ⟨place, rfl, hfound⟩ := h.found
  rw [h.eq]
  exact get?_place_of_found hfound new rest

theorem Adds.get?_self (h : Adds before location new after) :
    after.root.get? location = some new := by
  simpa using h.get?_append []

theorem Adds.none_below (h : Adds before location new after) {rest : Location} (hne : rest ≠ []) :
    before.root.get? (location ++ rest) = none := by
  rw [Node.get?_append]
  cases hold : before.root.get? location with
  | none => rfl
  | some node =>
    by_contra hsome
    obtain ⟨child, hchild⟩ := Option.ne_none_iff_exists'.mp hsome
    have hfile := (h.old _ (kindAt_of_get? hold)).1
    rw [kind_of_get? hne hchild] at hfile
    cases hfile

theorem Adds.bareAt_of_ne (h : Adds before location new after) {other : Location}
    (hne : other ≠ location) : after.root.bareAt other = before.root.bareAt other := by
  by_cases hp : location <+: other
  · obtain ⟨rest, rfl⟩ := hp
    have hrest : rest ≠ [] := by
      rintro rfl
      exact hne (List.append_nil _)
    rw [Node.bareAt, Node.bareAt, h.get?_append, h.none_below hrest, h.leaf.get?_eq_none hrest]
  · rw [h.eq, placeAt, Node.bareAt_place hp]

theorem Adds.kindAt_of_ne (h : Adds before location new after) {other : Location}
    (hne : other ≠ location) : after.root.kindAt other = before.root.kindAt other := by
  rw [Node.kindAt_eq_bareAt, h.bareAt_of_ne hne, ← Node.kindAt_eq_bareAt]

theorem Adds.get?_of_ne (h : Adds before location new after) {other : Location}
    (hne : other ≠ location) {node : Node} (hget : after.root.get? other = some node)
    (hkind : node.kind ≠ .directory) : before.root.get? other = some node := by
  have hbelow : ¬location <+: other := by
    rintro ⟨rest, rfl⟩
    have hrest : rest ≠ [] := by
      rintro rfl
      exact hne (List.append_nil _)
    rw [h.get?_append, h.leaf.get?_eq_none hrest] at hget
    cases hget
  have habove : ¬other <+: location := by
    rintro ⟨rest, rfl⟩
    have hrest : rest ≠ [] := by
      rintro rfl
      exact hne (List.append_nil _).symm
    have hself := h.get?_self
    rw [Node.get?_append, hget, Option.bind_some] at hself
    exact hkind (kind_of_get? hrest hself)
  rwa [h.eq, placeAt, Node.get?_place_of_incomparable hbelow habove] at hget

theorem Adds.extends (h : Adds before location new after) : Extends before after where
  workingDirectory_eq := by rw [h.eq, placeAt]
  kept other kind hk := by
    by_cases hne : other = location
    · subst hne
      obtain ⟨rfl, hnew⟩ := h.old kind hk
      rw [kindAt_of_get? h.get?_self, hnew]
    · rwa [h.kindAt_of_ne hne]
  links other target hk := by
    by_cases hne : other = location
    · subst hne
      rw [kindAt_of_get? h.get?_self] at hk
      exact absurd (Option.some.inj hk) (h.leaf.kind_ne_link target)
    · rwa [h.kindAt_of_ne hne] at hk

theorem adds_of_absent {follow : Bool} {path : String}
    (h : before.lookup follow path = .ok (.absent location)) (hleaf : IsLeaf new) :
    Adds before location new (before.placeAt location new) where
  eq := rfl
  found := ⟨_, rfl, found_of_lookup h⟩
  leaf := hleaf
  old kind hk := by
    obtain ⟨parent, entries, name, rfl, -, hd, hnone⟩ := found_of_lookup h
    rw [kindAt, Node.get?_concat hd, hnone] at hk
    cases hk

theorem endsInSlash_of_file {fs : FileSystem} {path : String} {contents : Bytes}
    {executable : Bool}
    (h : fs.lookup true path = .ok (.present location (.file contents executable))) :
    Path.endsInSlash path = false := by
  have hwalk := walk_of_lookup h
  rw [lookup_of_isUsable (isUsable_of_lookup h), hwalk] at h
  cases hslash : Path.endsInSlash path with
  | false => rfl
  | true =>
      rw [hslash] at h
      cases h

/-- What is written is a file at the end of a look-up, as executable as it was. -/
theorem adds_of_write {path : String} {contents : Bytes}
    (h : before.write path contents = .ok after) :
    ∃ place executable, before.lookup true path = .ok place ∧ Path.endsInSlash path = false ∧
      Adds before place.location (.file contents executable) after := by
  have hleaf (executable : Bool) : IsLeaf (.file contents executable) := .inl ⟨_, _, rfl⟩
  rw [write_eq] at h
  split at h
  · cases h
  · next location old executable hl =>
      cases h
      refine ⟨_, executable, hl, ?_, rfl, ⟨_, rfl, found_of_lookup hl⟩, hleaf _, ?_⟩
      · exact endsInSlash_of_file hl
      · intro kind hk
        have hget : before.root.get? location = some (.file old executable) := found_of_lookup hl
        rw [Place.location, kindAt_of_get? hget] at hk
        exact ⟨(Option.some.inj hk).symm, rfl⟩
  · cases h
  · next location hl =>
      split at h
      · cases h
      · next hslash =>
          cases h
          exact ⟨_, false, hl, by simpa using hslash, adds_of_absent hl (hleaf _)⟩

end

/-! ### Extensions -/

section
variable {before after : FileSystem}

theorem Extends.refl (fs : FileSystem) : Extends fs fs := ⟨rfl, fun _ _ h => h, fun _ _ h => h⟩

theorem Extends.trans {last : FileSystem} (h : Extends before after) (h' : Extends after last) :
    Extends before last where
  workingDirectory_eq := h'.workingDirectory_eq.trans h.workingDirectory_eq
  kept l kind hk := h'.kept l kind (h.kept l kind hk)
  links l target hk := h.links l target (h'.links l target hk)

theorem extends_makeDirectories (fs : FileSystem) (path : String) :
    Extends fs (fs.makeDirectories path).1 :=
  makeDirectories_induction (.refl fs) fun _ _ _ hextends _ hl =>
    hextends.trans (adds_of_absent hl (.inr rfl)).extends

/-- Making directories changes nothing that is there. -/
theorem bareAt_makeDirectories {fs : FileSystem} {location : Location} {node : Node}
    (h : fs.root.bareAt location = some node) (path : String) :
    (fs.makeDirectories path).1.root.bareAt location = some node := by
  refine makeDirectories_induction (P := fun fs => fs.root.bareAt location = some node) h
    fun fs front place h _ hl => ?_
  have hadds := adds_of_absent hl (.inr rfl)
  by_cases hne : location = place
  · subst hne
    have hkind : fs.root.kindAt location = some node.kind := by
      rw [Node.kindAt_eq_bareAt, h]
      rfl
    cases (hadds.old _ hkind).2
  · rw [hadds.bareAt_of_ne hne, h]

theorem extends_write {path : String} {contents : Bytes}
    (h : before.write path contents = .ok after) : Extends before after := by
  obtain ⟨_, _, _, _, hadds⟩ := adds_of_write h
  exact hadds.extends

theorem Extends.startOf_eq (h : Extends before after) (path : String) :
    after.startOf path = before.startOf path := by
  rw [startOf, startOf, h.workingDirectory_eq]

theorem Extends.leads (h : Extends before after) {avoid : Location → Prop} {path : String}
    {names : List String} {links : Nat} {location : Location}
    (hleads : Leads avoid before.root linkLimit (before.startOf path) names links location) :
    Leads avoid after.root linkLimit (after.startOf path) names links location := by
  rw [h.startOf_eq]
  exact hleads.keep h.kept

theorem isFile_of_leads {fs : FileSystem} {path : String} {links : Nat} {location : Location}
    (hu : IsUsable path) (hslash : Path.endsInSlash path = false)
    (h : Leads (fun _ => False) fs.root linkLimit (fs.startOf path) (Path.names path) links
      location) (hfile : fs.root.kindAt location = some .file) : fs.isFile path := by
  obtain ⟨node, hget, hkind⟩ := Option.map_eq_some_iff.mp hfile
  have hwalk : walk fs.root true linkLimit (fs.startOf path) (Path.names path ++ []) =
      walk fs.root true links location [] := h.walk_append (.inr rfl)
  rw [List.append_nil, walk_nil, hget] at hwalk
  rw [isFile, node?, lookup_eq_walk hu hslash, hwalk]
  cases node with
  | file contents executable => rfl
  | link target => cases hkind
  | directory entries => cases hkind

theorem Extends.isFile (h : Extends before after) {path : String} (hfile : before.isFile path) :
    after.isFile path := by
  unfold FileSystem.isFile node? at hfile
  cases hl : before.lookup true path with
  | error e => simp [hl] at hfile
  | ok place =>
    cases place with
    | absent location => simp [hl] at hfile
    | present location node =>
      cases node with
      | link target => simp [hl] at hfile
      | directory entries => simp [hl] at hfile
      | file contents executable =>
        obtain ⟨links, hleads⟩ := leads_of_walk (walk_of_lookup hl)
        have hkind : before.root.kindAt location = some .file := kindAt_of_get? (found_of_lookup hl)
        exact isFile_of_leads (isUsable_of_lookup hl) (endsInSlash_of_file hl) (h.leads hleads)
          (h.kept _ _ hkind)

end

/-! ### Parts of a walk -/

section
variable {root root' : Node} {follow : Bool} {more : List String} {place : Place}

/-- A walk goes through where its first names lead. -/
theorem leads_of_walk_append {links : Nat} {location : Location} {names : List String}
    (hmore : more ≠ []) (h : walk root follow links location (names ++ more) = .ok place) :
    ∃ links' found, Leads (fun _ => False) root links location names links' found ∧
      walk root follow links' found more = .ok place := by
  obtain ⟨links', found, hleads, -⟩ :=
    leads_of_walk_front h (fun _ _ hk => hk) fun hnil => absurd hnil hmore
  exact ⟨links', found, hleads, by rwa [← hleads.walk_append (.inl hmore)]⟩

/-- A path at which something has come to be leads there. -/
theorem leads_of_walk_absent {links : Nat} {location found : Location} {names : List String}
    (h : walk root follow links location names = .ok (.absent found))
    (hkeep : ∀ l kind, root.kindAt l = some kind → root'.kindAt l = some kind)
    {kind : Node.Kind} (hkind : root'.kindAt found = some kind)
    (hlink : ∀ target, kind ≠ .link target) :
    ∃ links', Leads (fun _ => False) root' links location names links' found := by
  rw [← List.append_nil names] at h
  obtain ⟨links', location', hleads, hfound⟩ :=
    leads_of_walk_front h hkeep fun _ => .inr ⟨kind, rfl, hkind, hlink⟩
  obtain rfl : location' = found := hfound rfl
  exact ⟨links', hleads⟩

end

theorem isFile_of_write {before after : FileSystem} {path : String} {contents : Bytes}
    (h : before.write path contents = .ok after) : after.isFile path := by
  obtain ⟨place, executable, hl, hslash, hadds⟩ := adds_of_write h
  have hextends := hadds.extends
  have hkind : after.root.kindAt place.location = some .file := kindAt_of_get? hadds.get?_self
  obtain ⟨links, hleads⟩ : ∃ links, Leads (fun _ => False) after.root linkLimit
      (before.startOf path) (Path.names path) links place.location := by
    cases place with
    | present location node =>
        obtain ⟨links, hleads⟩ := leads_of_walk (walk_of_lookup hl)
        exact ⟨links, hleads.keep hextends.kept⟩
    | absent location =>
        exact leads_of_walk_absent (walk_of_lookup hl) hextends.kept hkind (by simp)
  rw [← hextends.startOf_eq] at hleads
  exact isFile_of_leads (isUsable_of_lookup hl) hslash hleads hkind

end BuildMatrix.FileSystem
