import BuildMatrix.Proofs.Workspace.Stage

/-!
# Copies made inside of the package root

A copy that is made below the directory that is copied does not enter itself, so it comes out as if
it had not been there yet.
-/

namespace BuildMatrix

open FileSystem

namespace Workspace

/-- The directories of a tree are told from the copy by their paths, if the copy is named as a
directory of the tree. -/
theorem covers_of_spelled {avoid : Location → Prop} {base : FileSystem} {source : String}
    {own : List Path.Component} {links : Nat} {location dest down : Location} {entries : Entries}
    (hs : Resolves avoid base source links location)
    (hd : base.root.get? location = some (.directory entries)) (ht : entries.IsTree)
    (hdest : base.root.get? dest = some (.directory .nil)) (hdown : dest = location ++ down)
    (hne : down ≠ []) (hown : own = Path.components source ++ down.map .name) :
    Covers base dest own links source location entries where
  resolves := resolves_under hs (by simp [kindAt_of_get? hd]) hdest
  directory := hd
  outside hp := by
    rw [hdown] at hp
    exact hne (List.self_eq_append_right.mp (hp.eq_of_length_le (by simp)).symm)
  tree := ht
  named other inner path _ hget habs hnames := by
    have hdirectory : (Node.directory entries).IsTree := ht
    have hother := fun name hname => (hdirectory.names hget name hname).1
    rw [Path.components_append habs hnames hother, hown, hdown, List.append_cancel_left_eq,
      List.append_cancel_left_eq]
    exact List.map_inj_right fun _ _ h => Path.Component.name.inj h

section
variable {dest location : Location} {name : String}

theorem kept_insert {deeper deeper' : Entries} (hne : location ++ [name] ≠ dest)
    (hbelow : location ++ [name] <+: dest)
    (hsame : kept dest (location ++ [name]) deeper' = pruned deeper) :
    ∀ {entries : Entries}, entries.IsTree → entries.find? name = some (.directory deeper) →
      kept dest location (entries.insert name (.directory deeper')) = pruned entries
  | .nil, _, h => by simp at h
  | .cons first node rest, ⟨hn, hname, hnew, hnode, hrest⟩, h => by
      -- The copy is below `name` only.
      have hother {entries : Entries} (ht : entries.IsTree) (hmissing : entries.find? name = none) :
          kept dest location entries = pruned entries := by
        obtain ⟨more, hmore⟩ := hbelow
        refine kept_eq_pruned ht fun down hdown => ?_
        rw [← hmore, List.append_assoc] at hdown
        rw [← List.append_cancel_left hdown, List.singleton_append, Node.get?_directory, hmissing,
          Option.bind_none]
      rw [Entries.find?_cons] at h
      by_cases hfirst : first = name
      · subst hfirst
        rw [if_pos rfl] at h
        cases h
        rw [Entries.insert, if_pos rfl, kept, pruned, hsame, hother hrest hnew]
        simp only [hne, false_or]
      · rw [if_neg hfirst] at h
        have hsingle : (Entries.cons first node .nil).IsTree := ⟨hn, hname, rfl, hnode, trivial⟩
        have hpruned := pruned_append (.cons first node .nil) rest
        rw [Entries.append, Entries.append] at hpruned
        rw [Entries.insert, if_neg hfirst, kept_cons, kept_insert hne hbelow hsame hrest h,
          hother hsingle (by simp [Entries.find?_cons, hfirst]), hpruned]

/-- What a copy in a new directory has is what it would have without this directory. -/
theorem kept_place {others : Entries} (hmissing : others.find? name = none) (inner : Entries) :
    ∀ (down : Location) {entries : Entries} (location : Location), entries.IsTree →
      (Node.directory entries).get? down = some (.directory others) →
      ∃ now, (Node.directory entries).place (down ++ [name]) (.directory inner) =
          .directory now ∧
        kept (location ++ (down ++ [name])) location now = pruned entries
  | [], entries, location, ht, hget => by
      obtain rfl : entries = others := by simpa using hget
      refine ⟨_, Node.place_singleton _ _ _, ?_⟩
      have hpruned : kept (location ++ ([] ++ [name])) location entries = pruned entries := by
        refine kept_eq_pruned ht fun rest hrest => ?_
        rw [← List.append_cancel_left hrest, List.nil_append, Node.get?_directory, hmissing,
          Option.bind_none]
      rw [Entries.insert_of_find?_eq_none _ hmissing, kept_append, hpruned]
      simp [kept]
  | first :: down, entries, location, ht, hget => by
      obtain ⟨deeper, hchild, hdown⟩ := Node.exists_directory_of_get?_cons hget
      obtain ⟨-, -, hinner⟩ := ht.find? hchild
      obtain ⟨deeper', hplace, hsame⟩ :=
        kept_place hmissing inner down (location ++ [first]) hinner hdown
      refine ⟨entries.insert first (.directory deeper'), ?_, ?_⟩
      · rw [List.cons_append, Node.place_cons hchild, hplace]
      · refine kept_insert (by simp) ⟨down ++ [name], by simp⟩ ?_ ht hchild
        rw [← hsame]
        simp

end

end Workspace

end BuildMatrix
