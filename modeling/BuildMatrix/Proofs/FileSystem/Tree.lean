import BuildMatrix.FileSystem.Node

/-!
# Changes in file trees

Placing and removing a node both edit the entries of one directory. An edit is seen from below that
directory; from every other location the tree looks as before, except that the directories on the
way hold the edited one.
-/

namespace BuildMatrix

namespace Entries

@[simp] theorem find?_nil (name : String) : nil.find? name = none := rfl

theorem find?_cons (name other : String) (node : Node) (rest : Entries) :
    (cons name node rest).find? other = if name = other then some node else rest.find? other := rfl

theorem find?_insert_self (name : String) (node : Node) :
    ∀ entries : Entries, (entries.insert name node).find? name = some node
  | nil => by simp [insert, find?_cons]
  | cons n old rest => by
      by_cases h : n = name
      · simp [insert, h, find?_cons]
      · simp [insert, h, find?_cons, find?_insert_self name node rest]

theorem find?_insert_of_ne {name other : String} (h : other ≠ name) (node : Node) :
    ∀ entries : Entries, (entries.insert name node).find? other = entries.find? other
  | nil => by simp [insert, find?_cons, Ne.symm h]
  | cons n old rest => by
      by_cases hn : n = name
      · simp [insert, hn, find?_cons]
        simp [Ne.symm h]
      · simp [insert, hn, find?_cons, find?_insert_of_ne h node rest]

theorem find?_erase_of_ne {name other : String} (h : other ≠ name) :
    ∀ entries : Entries, (entries.erase name).find? other = entries.find? other
  | nil => rfl
  | cons n old rest => by
      by_cases hn : n = name
      · simp [erase, hn, find?_cons, Ne.symm h]
      · simp [erase, hn, find?_cons, find?_erase_of_ne h rest]

theorem insert_insert (name : String) (node node' : Node) :
    ∀ entries : Entries, (entries.insert name node).insert name node' = entries.insert name node'
  | nil => by simp [insert]
  | cons n old rest => by
      by_cases hn : n = name
      · simp [insert, hn]
      · simp [insert, hn, insert_insert name node node' rest]

/-- Putting a node where it is changes nothing. -/
theorem insert_of_find? {name : String} {node : Node} :
    ∀ {entries : Entries}, entries.find? name = some node → entries.insert name node = entries
  | nil, h => by simp at h
  | cons n old rest, h => by
      by_cases hn : n = name
      · simp_all [find?_cons, insert]
      · simp only [find?_cons, hn, if_false] at h
        simp [insert, hn, insert_of_find? h]

end Entries

namespace Node

@[simp] theorem get?_nil (node : Node) : node.get? [] = some node := by
  cases node <;> rfl

theorem get?_directory (entries : Entries) (name : String) (rest : Location) :
    (directory entries).get? (name :: rest) =
      (entries.find? name).bind fun child => child.get? rest := rfl

@[simp] theorem get?_file (contents : Bytes) (executable : Bool) (name : String)
    (rest : Location) : (file contents executable).get? (name :: rest) = none := rfl

@[simp] theorem get?_link (target : String) (name : String) (rest : Location) :
    (link target).get? (name :: rest) = none := rfl

/-- A longer location begins with an entry of a directory. -/
theorem exists_entry_of_get? {node found : Node} {name : String} {rest : Location}
    (h : node.get? (name :: rest) = some found) :
    ∃ entries child, node = directory entries ∧ entries.find? name = some child ∧
      child.get? rest = some found := by
  cases node with
  | file contents executable => simp at h
  | link target => simp at h
  | directory entries =>
      rw [get?_directory] at h
      obtain ⟨child, hchild, hrest⟩ := Option.bind_eq_some_iff.mp h
      exact ⟨entries, child, rfl, hchild, hrest⟩

theorem get?_append (node : Node) (a b : Location) :
    node.get? (a ++ b) = (node.get? a).bind fun n => n.get? b := by
  induction a generalizing node with
  | nil => simp
  | cons name a ih =>
      cases node with
      | file contents executable => rfl
      | link target => rfl
      | directory entries =>
          simp only [List.cons_append, get?_directory]
          cases entries.find? name with
          | none => rfl
          | some child => exact ih child

theorem get?_concat {node : Node} {location : Location} {entries : Entries}
    (h : node.get? location = some (directory entries)) (name : String) :
    node.get? (location ++ [name]) = entries.find? name := by
  rw [get?_append, h]
  simp [get?_directory]

/-- Every location on the way to a node is that of a directory. -/
theorem get?_dropLast {node : Node} {location : Location} {name : String} {child : Node}
    (h : node.get? (location ++ [name]) = some child) :
    ∃ entries, node.get? location = some (directory entries) ∧
      entries.find? name = some child := by
  rw [get?_append] at h
  obtain ⟨n, hn, hchild⟩ := Option.bind_eq_some_iff.mp h
  cases n with
  | file contents executable => simp at hchild
  | link target => simp at hchild
  | directory entries => exact ⟨entries, hn, by simpa [get?_directory] using hchild⟩

/-- Changes the entries of the directory at a location. -/
def edit (f : Entries → Entries) : Node → Location → Node
  | directory entries, [] => directory (f entries)
  | directory entries, name :: rest =>
    match entries.find? name with
    | some child => directory (entries.insert name (edit f child rest))
    | none => directory entries
  | node, _ => node

section
variable (f : Entries → Entries)

theorem place_concat (node new : Node) (location : Location) (name : String) :
    node.place (location ++ [name]) new = node.edit (·.insert name new) location := by
  induction location generalizing node with
  | nil => cases node <;> rfl
  | cons n rest ih =>
      cases node with
      | file contents executable => simp [place, edit]
      | link target => simp [place, edit]
      | directory entries =>
          obtain ⟨m, tail, hm⟩ : ∃ m tail, rest ++ [name] = m :: tail :=
            List.exists_cons_of_ne_nil (by simp)
          simp only [List.cons_append, hm, place, edit]
          cases entries.find? n with
          | none => rfl
          | some child => simp only [← hm, ih]

theorem remove_concat (node : Node) (location : Location) (name : String) :
    node.remove (location ++ [name]) = node.edit (·.erase name) location := by
  induction location generalizing node with
  | nil => cases node <;> rfl
  | cons n rest ih =>
      cases node with
      | file contents executable => simp [remove, edit]
      | link target => simp [remove, edit]
      | directory entries =>
          obtain ⟨m, tail, hm⟩ : ∃ m tail, rest ++ [name] = m :: tail :=
            List.exists_cons_of_ne_nil (by simp)
          simp only [List.cons_append, hm, remove, edit]
          cases entries.find? n with
          | none => rfl
          | some child => simp only [← hm, ih]

theorem get?_edit_prefix (node : Node) (location rest : Location) :
    (node.edit f (location ++ rest)).get? location =
      (node.get? location).map fun n => n.edit f rest := by
  induction location generalizing node with
  | nil => simp
  | cons name location ih =>
      cases node with
      | file contents executable => rfl
      | link target => rfl
      | directory entries =>
          simp only [List.cons_append, edit, get?_directory]
          cases hc : entries.find? name with
          | none => simp [get?_directory, hc]
          | some child =>
              simp only [get?_directory, Entries.find?_insert_self]
              exact ih child

theorem get?_edit_of_incomparable {location other : Location} (h : ¬location <+: other)
    (h' : ¬other <+: location) (node : Node) :
    (node.edit f location).get? other = node.get? other := by
  induction location generalizing node other with
  | nil => exact absurd List.nil_prefix h
  | cons name location ih =>
      cases other with
      | nil => exact absurd List.nil_prefix h'
      | cons n other =>
          cases node with
          | file contents executable => rfl
          | link target => rfl
          | directory entries =>
              simp only [edit]
              cases hc : entries.find? name with
              | none => rfl
              | some child =>
                  simp only [get?_directory]
                  by_cases hn : n = name
                  · subst hn
                    have hrest := ih (fun hp => h (List.cons_prefix_cons.mpr ⟨rfl, hp⟩))
                      (fun hp => h' (List.cons_prefix_cons.mpr ⟨rfl, hp⟩)) child
                    simp [Entries.find?_insert_self, hc, hrest]
                  · rw [Entries.find?_insert_of_ne hn]

/-- What a look-up tells from a node. -/
inductive Kind where
  | file
  | link (target : String)
  | directory
deriving DecidableEq, Repr

def kind : Node → Kind
  | file .. => .file
  | link target => .link target
  | directory _ => .directory

def kindAt (node : Node) (location : Location) : Option Kind := (node.get? location).map kind

def bare : Node → Node
  | directory _ => directory .nil
  | node => node

/-- The node at a location without what is below it, if there is one. -/
def bareAt (node : Node) (location : Location) : Option Node := (node.get? location).map bare

theorem kind_bare (node : Node) : node.bare.kind = node.kind := by
  cases node <;> rfl

theorem kindAt_eq_bareAt (node : Node) (location : Location) :
    node.kindAt location = (node.bareAt location).map kind := by
  rw [kindAt, bareAt, Option.map_map]
  congr 1
  funext n
  exact (kind_bare n).symm

theorem bare_edit (node : Node) (location : Location) :
    (node.edit f location).bare = node.bare := by
  cases node with
  | file contents executable => simp [edit]
  | link target => simp [edit]
  | directory entries =>
      cases location with
      | nil => rfl
      | cons name rest =>
          simp only [edit]
          split <;> rfl

variable {f} {name : String}

/-- An edit of one entry leaves the other entries, and all that is beside the directory. -/
theorem get?_edit
    (hf : ∀ entries other, other ≠ name → (f entries).find? other = entries.find? other)
    {location other : Location} (h : ¬location ++ [name] <+: other) (h' : ¬other <+: location)
    (node : Node) : (node.edit f location).get? other = node.get? other := by
  by_cases hp : location <+: other
  · obtain ⟨rest, rfl⟩ := hp
    cases rest with
    | nil => exact absurd (by simp) h'
    | cons n rest =>
        have hn : n ≠ name := by
          rintro rfl
          exact h ⟨rest, by simp⟩
        have hedit := get?_edit_prefix f node location []
        rw [List.append_nil] at hedit
        rw [get?_append, get?_append node, hedit]
        cases hl : node.get? location with
        | none => rfl
        | some inner =>
            cases inner with
            | file contents executable => rfl
            | link target => rfl
            | directory entries => simp [edit, get?_directory, hf entries n hn]
  · exact get?_edit_of_incomparable f hp h' node

/-- The directories above hold another one, but nothing else is different. -/
theorem bareAt_edit
    (hf : ∀ entries other, other ≠ name → (f entries).find? other = entries.find? other)
    {location other : Location} (h : ¬location ++ [name] <+: other) (node : Node) :
    (node.edit f location).bareAt other = node.bareAt other := by
  by_cases hp : other <+: location
  · obtain ⟨rest, rfl⟩ := hp
    simp only [bareAt, get?_edit_prefix, Option.map_map]
    congr 1
    funext n
    exact bare_edit f n rest
  · rw [bareAt, bareAt, get?_edit hf h hp]

end

section
variable {location other : Location}

theorem exists_concat_of_not_prefix (h : ¬location <+: other) :
    ∃ parent name, location = parent ++ [name] := by
  have hne : location ≠ [] := by
    rintro rfl
    exact h List.nil_prefix
  exact ⟨location.dropLast, location.getLast hne, (List.dropLast_concat_getLast hne).symm⟩

theorem get?_place_of_incomparable (h : ¬location <+: other) (h' : ¬other <+: location)
    (node new : Node) : (node.place location new).get? other = node.get? other := by
  obtain ⟨parent, name, rfl⟩ := exists_concat_of_not_prefix h
  rw [place_concat]
  refine get?_edit (fun entries other hne => Entries.find?_insert_of_ne hne new entries) h ?_ node
  exact fun hp => h' (hp.trans (List.prefix_append _ _))

theorem bareAt_place (h : ¬location <+: other) (node new : Node) :
    (node.place location new).bareAt other = node.bareAt other := by
  obtain ⟨parent, name, rfl⟩ := exists_concat_of_not_prefix h
  rw [place_concat]
  exact bareAt_edit (fun entries other hne => Entries.find?_insert_of_ne hne new entries) h node

theorem kindAt_place (h : ¬location <+: other) (node new : Node) :
    (node.place location new).kindAt other = node.kindAt other := by
  rw [kindAt_eq_bareAt, bareAt_place h, ← kindAt_eq_bareAt]

theorem get?_remove_of_incomparable (h : ¬location <+: other) (h' : ¬other <+: location)
    (node : Node) : (node.remove location).get? other = node.get? other := by
  obtain ⟨parent, name, rfl⟩ := exists_concat_of_not_prefix h
  rw [remove_concat]
  refine get?_edit (fun entries other hne => Entries.find?_erase_of_ne hne entries) h ?_ node
  exact fun hp => h' (hp.trans (List.prefix_append _ _))

theorem kindAt_remove (h : ¬location <+: other) (node : Node) :
    (node.remove location).kindAt other = node.kindAt other := by
  obtain ⟨parent, name, rfl⟩ := exists_concat_of_not_prefix h
  rw [remove_concat, kindAt_eq_bareAt,
    bareAt_edit (fun entries other hne => Entries.find?_erase_of_ne hne entries) h,
    ← kindAt_eq_bareAt]

end

theorem place_cons {entries : Entries} {name : String} {child : Node}
    (h : entries.find? name = some child) (rest : Location) (new : Node) :
    (directory entries).place (name :: rest) new =
      directory (entries.insert name (child.place rest new)) := by
  cases rest with
  | nil => cases child <;> rfl
  | cons n rest => simp [place, h]

@[simp] theorem place_nil (node new : Node) : node.place [] new = new := by
  cases node <;> rfl

theorem place_singleton (entries : Entries) (name : String) (new : Node) :
    (directory entries).place [name] new = directory (entries.insert name new) := rfl

theorem place_append {node inner : Node} {a : Location} (h : node.get? a = some inner)
    (b : Location) (new : Node) : node.place (a ++ b) new = node.place a (inner.place b new) := by
  induction a generalizing node with
  | nil =>
      obtain rfl : node = inner := by simpa using h
      simp
  | cons name a ih =>
      obtain ⟨entries, child, rfl, hchild, hrest⟩ := exists_entry_of_get? h
      rw [List.cons_append, place_cons hchild, place_cons hchild, ih hrest]

theorem place_of_get? {node inner : Node} {a : Location} (h : node.get? a = some inner) :
    node.place a inner = node := by
  induction a generalizing node with
  | nil => simpa using h.symm
  | cons name a ih =>
      obtain ⟨entries, child, rfl, hchild, hrest⟩ := exists_entry_of_get? h
      rw [place_cons hchild, ih hrest, Entries.insert_of_find? hchild]

theorem get?_place {node inner : Node} {a : Location} (h : node.get? a = some inner) (new : Node)
    (b : Location) : (node.place a new).get? (a ++ b) = new.get? b := by
  induction a generalizing node with
  | nil => simp
  | cons name a ih =>
      obtain ⟨entries, child, rfl, hchild, hrest⟩ := exists_entry_of_get? h
      rw [place_cons hchild, List.cons_append, get?_directory, Entries.find?_insert_self]
      exact ih hrest

theorem place_place {node inner : Node} {a : Location} (h : node.get? a = some inner)
    (new new' : Node) : (node.place a new).place a new' = node.place a new' := by
  induction a generalizing node with
  | nil => simp
  | cons name a ih =>
      obtain ⟨entries, child, rfl, hchild, hrest⟩ := exists_entry_of_get? h
      rw [place_cons hchild, place_cons (Entries.find?_insert_self _ _ _), ih hrest,
        Entries.insert_insert, place_cons hchild]

theorem place_concat_of_get? {node : Node} {a : Location} {entries : Entries}
    (h : node.get? a = some (directory entries)) (name : String) (new : Node) :
    node.place (a ++ [name]) new = node.place a (directory (entries.insert name new)) := by
  rw [place_append h, place_singleton]

theorem exists_directory_of_get? {node : Node} {location : Location} {inner : Entries}
    (h : node.get? location = some (directory inner)) : ∃ entries, node = directory entries := by
  cases node with
  | directory entries => exact ⟨entries, rfl⟩
  | file contents executable => cases location <;> simp at h
  | link target => cases location <;> simp at h

/-- A directory further down lies in an entry that is a directory. -/
theorem exists_directory_of_get?_cons {entries inner : Entries} {name : String} {down : Location}
    (h : (directory entries).get? (name :: down) = some (directory inner)) :
    ∃ deeper, entries.find? name = some (directory deeper) ∧
      (directory deeper).get? down = some (directory inner) := by
  rw [get?_directory] at h
  obtain ⟨child, hchild, hdown⟩ := Option.bind_eq_some_iff.mp h
  obtain ⟨deeper, rfl⟩ := exists_directory_of_get? hdown
  exact ⟨deeper, hchild, hdown⟩

theorem exists_directory_place (entries : Entries) (down : Location) (new : Entries) :
    ∃ now, (directory entries).place down (directory new) = directory now := by
  match down with
  | [] => exact ⟨new, rfl⟩
  | [name] => exact ⟨_, rfl⟩
  | name :: next :: rest =>
      rw [place]
      split
      · exact ⟨_, rfl⟩
      · exact ⟨_, rfl⟩

end Node

end BuildMatrix
