import BuildMatrix.Proofs.FileSystem.Extension
import BuildMatrix.Proofs.Workspace.Copy
import Mathlib.Data.Finset.Card

/-!
# What is kept of a directory

The entries that a copy has are told by their locations: those outside of the copy that are not
behind a directory with a name that is left out. Their number, how deep they are and whether their
paths can be looked up are told by their locations too.
-/

namespace BuildMatrix

open FileSystem

namespace Node

theorem bareAt_append {node inner : Node} {location : Location}
    (h : node.get? location = some inner) (down : Location) :
    node.bareAt (location ++ down) = inner.bareAt down := by
  rw [bareAt, get?_append, h, Option.bind_some, bareAt]

theorem bareAt_cons (entries : Entries) (name : String) (rest : Location) :
    (directory entries).bareAt (name :: rest) =
      (entries.find? name).bind fun child => child.bareAt rest := by
  rw [bareAt, get?_directory, Option.map_bind]
  rfl

def HasLeaf (node : Node) (location : Location) : Prop :=
  ∃ found, node.get? location = some found ∧ found.kind ≠ .directory

theorem HasLeaf.cons_iff {name : String} {node : Node} {rest : Entries}
    (hnew : rest.find? name = none) {down : Location} :
    (directory (.cons name node rest)).HasLeaf down ↔
      (∃ more, down = name :: more ∧ node.HasLeaf more) ∨ (directory rest).HasLeaf down := by
  by_cases hne : down = []
  · subst hne
    simp [HasLeaf, kind]
  · constructor
    · rintro ⟨found, hget, hkind⟩
      rcases (get?_cons_entries hnew hne).mp hget with ⟨more, rfl, hmore⟩ | hrest
      · exact .inl ⟨more, rfl, found, hmore, hkind⟩
      · exact .inr ⟨found, hrest, hkind⟩
    · rintro (⟨more, rfl, found, hmore, hkind⟩ | ⟨found, hrest, hkind⟩)
      · exact ⟨found, (get?_cons_entries hnew hne).mpr (.inl ⟨more, rfl, hmore⟩), hkind⟩
      · exact ⟨found, (get?_cons_entries hnew hne).mpr (.inr hrest), hkind⟩

theorem not_hasLeaf_nil (location : Location) : ¬(directory .nil).HasLeaf location := by
  rintro ⟨found, hget, hkind⟩
  cases location with
  | nil =>
      obtain rfl : directory .nil = found := by simpa using hget
      exact hkind rfl
  | cons name rest => cases hget

theorem hasLeaf_of_kind {node : Node} (hkind : node.kind ≠ .directory) {location : Location} :
    node.HasLeaf location ↔ location = [] := by
  constructor
  · rintro ⟨found, hget, -⟩
    by_contra hne
    exact hkind (kind_of_get? hne hget)
  · rintro rfl
    exact ⟨node, get?_nil node, hkind⟩

theorem exists_leaves_cons {name : String} {node : Node} {rest : Entries}
    (hnew : rest.find? name = none) {a b : Finset Location}
    (ha : ∀ down, down ∈ a ↔ node.HasLeaf down)
    (hb : ∀ down, down ∈ b ↔ (directory rest).HasLeaf down) :
    ∃ found : Finset Location, found.card = a.card + b.card ∧
      ∀ down, down ∈ found ↔ (directory (.cons name node rest)).HasLeaf down := by
  have hdisjoint : Disjoint (a.map ⟨List.cons name, List.cons_injective⟩) b := by
    rw [Finset.disjoint_left]
    intro down hdown hrest
    obtain ⟨more, -, rfl⟩ := Finset.mem_map.mp hdown
    obtain ⟨found, hget, -⟩ := (hb _).mp hrest
    rw [Function.Embedding.coeFn_mk, get?_directory, hnew] at hget
    cases hget
  refine ⟨a.map ⟨List.cons name, List.cons_injective⟩ ∪ b, ?_, fun down => ?_⟩
  · rw [Finset.card_union_of_disjoint hdisjoint, Finset.card_map]
  · rw [HasLeaf.cons_iff hnew, Finset.mem_union, hb, Finset.mem_map]
    simp only [ha, Function.Embedding.coeFn_mk, and_comm, eq_comm]

end Node

theorem Entries.exists_leaves : ∀ {entries : Entries}, entries.IsTree →
    ∃ found : Finset Location, found.card = entries.leaves ∧
      ∀ down, down ∈ found ↔ (Node.directory entries).HasLeaf down
  | .nil, _ => ⟨∅, rfl, fun down => by simp [Node.not_hasLeaf_nil]⟩
  | .cons name node rest, ⟨_, _, hnew, hnode, hrest⟩ => by
      obtain ⟨b, hcard, hb⟩ := exists_leaves hrest
      have hleaf (hkind : node.kind ≠ .directory) :
          ∃ found : Finset Location, found.card = 1 + rest.leaves ∧ ∀ down, down ∈ found ↔
            (Node.directory (.cons name node rest)).HasLeaf down := by
        rw [← hcard, ← Finset.card_singleton ([] : Location)]
        refine Node.exists_leaves_cons hnew (fun down => ?_) hb
        rw [Finset.mem_singleton, Node.hasLeaf_of_kind hkind]
      cases node with
      | file contents executable => exact hleaf (by simp [Node.kind])
      | link target => exact hleaf (by simp [Node.kind])
      | directory inner =>
          obtain ⟨a, hcard', ha⟩ := exists_leaves hnode
          rw [leaves, ← hcard, ← hcard']
          exact Node.exists_leaves_cons hnew ha hb

/-- There are at most as many directories within each other as there are names on the way to one. -/
theorem Entries.depth_le : ∀ {entries : Entries} {n : Nat}, entries.IsTree →
    (∀ down inner, (Node.directory entries).get? down = some (.directory inner) →
      down.length ≤ n) → entries.depth ≤ n
  | .nil, n, _, _ => Nat.zero_le n
  | .cons name node rest, n, ⟨_, _, hnew, hnode, hrest⟩, h => by
      have hothers : rest.depth ≤ n := by
        refine depth_le hrest fun down inner hdown => ?_
        cases down with
        | nil => exact Nat.zero_le n
        | cons first down =>
            exact h _ inner ((Node.get?_cons_entries hnew (by simp)).mpr (.inr hdown))
      cases node with
      | file contents executable => exact hothers
      | link target => exact hothers
      | directory inner =>
          have hbelow (down : Location) (deeper : Entries)
              (hdown : (Node.directory inner).get? down = some (.directory deeper)) :
              down.length + 1 ≤ n :=
            h (name :: down) deeper
              ((Node.get?_cons_entries hnew (by simp)).mpr (.inl ⟨down, rfl, hdown⟩))
          have hn : 1 ≤ n := hbelow [] inner (Node.get?_nil _)
          have hinner : inner.depth ≤ n - 1 :=
            depth_le hnode fun down deeper hdown => Nat.le_sub_one_of_lt (hbelow down deeper hdown)
          rw [depth]
          omega

namespace Workspace

/-- A path below the directory at `origin` is copied: it is not one of the copy, and no directory on
it has a name that is left out. -/
structure Taken (root : Node) (origin dest down : Location) : Prop where
  outside : ¬dest <+: origin ++ down
  named : ∀ above name, above ++ [name] <+: down →
    root.kindAt (origin ++ (above ++ [name])) = some .directory → isSkipped name = false

section
variable {root : Node} {origin dest down : Location} {name : String}

theorem taken_nil (h : ¬dest <+: origin) : Taken root origin dest [] where
  outside := by rwa [List.append_nil]
  named above name hp := by simp at hp

theorem taken_cons : Taken root origin dest (name :: down) ↔
    (root.kindAt (origin ++ [name]) = some .directory → isSkipped name = false) ∧
      Taken root (origin ++ [name]) dest down := by
  have hbelow (more : Location) : origin ++ [name] ++ more = origin ++ name :: more := by simp
  constructor
  · intro h
    refine ⟨h.named [] name (by simp), by rw [hbelow]; exact h.outside, fun above n hp => ?_⟩
    rw [hbelow]
    exact h.named (name :: above) n (List.cons_prefix_cons.mpr ⟨rfl, hp⟩)
  · rintro ⟨hname, hrest⟩
    refine ⟨by rw [← hbelow]; exact hrest.outside, fun above n hp hkind => ?_⟩
    cases above with
    | nil =>
        obtain rfl : n = name := (List.cons_prefix_cons.mp hp).1
        exact hname hkind
    | cons first above =>
        obtain ⟨rfl, habove⟩ := List.cons_prefix_cons.mp hp
        exact hrest.named above n habove (by rwa [hbelow])

theorem Taken.congr {root' : Node} (h : Taken root origin dest down)
    (hsame : ∀ down, ¬dest <+: origin ++ down →
      root'.kindAt (origin ++ down) = root.kindAt (origin ++ down)) :
    Taken root' origin dest down where
  outside := h.outside
  named above name hp hkind := by
    refine h.named above name hp ((hsame _ fun hdest => h.outside ?_).symm.trans hkind)
    exact hdest.trans (List.prefix_append_right_inj _ |>.mpr hp)

end

theorem taken_leaf {root child : Node} {dest location down : Location} {name : String}
    (hdest : root.kindAt dest = some .directory) (hout : ¬dest <+: location)
    (hget : root.get? (location ++ [name]) = some child) (hkind : child.kind ≠ .directory)
    (hdown : child.bareAt down ≠ none) : Taken root location dest (name :: down) := by
  obtain rfl : down = [] := by
    obtain ⟨found, hfound⟩ := Option.ne_none_iff_exists'.mp (mt Option.map_eq_none_iff.mpr hdown)
    by_contra hne
    exact hkind (kind_of_get? hne hfound)
  have hkindAt := kindAt_of_get? hget
  refine taken_cons.mpr ⟨fun hdirectory => absurd (hkindAt.symm.trans hdirectory) (by simpa), ?_⟩
  refine taken_nil (outside_concat hout ?_)
  rintro rfl
  exact hkind (Option.some.inj (hkindAt.symm.trans hdest))

theorem bareAt_kept {root node : Node} {dest : Location}
    (hdest : root.kindAt dest = some .directory) : ∀ (down : Location) {location : Location}
    {entries : Entries}, root.get? location = some (.directory entries) → entries.IsTree →
      ¬dest <+: location → ((Node.directory (kept dest location entries)).bareAt down = some node ↔
        root.bareAt (location ++ down) = some node ∧ Taken root location dest down)
  | [], location, entries, hd, _, hout => by
      have hbare : root.bareAt (location ++ []) = some (.directory .nil) := by
        rw [List.append_nil, Node.bareAt, hd]
        rfl
      rw [hbare, Node.bareAt, Node.get?_nil]
      exact ⟨fun h => ⟨h, taken_nil hout⟩, fun h => h.1⟩
  | name :: down, location, entries, hd, ht, hout => by
      rw [Node.bareAt_cons, find?_kept name ht, Node.bareAt_append hd, Node.bareAt_cons]
      have hget := Node.get?_concat hd name
      cases hfind : entries.find? name with
      | none => simp
      | some child =>
          rw [hfind] at hget
          rw [Option.bind_some, Option.bind_some]
          have hleaf (hkind : child.kind ≠ .directory) : child.bareAt down = some node ↔
              child.bareAt down = some node ∧ Taken root location dest (name :: down) :=
            (and_iff_left_of_imp fun h => taken_leaf hdest hout hget hkind (by simp [h])).symm
          cases child with
          | file contents executable => exact hleaf (by simp [Node.kind])
          | link target => exact hleaf (by simp [Node.kind])
          | directory inner =>
              have hkind : root.kindAt (location ++ [name]) = some .directory :=
                kindAt_of_get? hget
              rw [taken_cons, hkind, keptNode]
              by_cases hskip : location ++ [name] = dest ∨ isSkipped name
              · rw [if_pos hskip, Option.bind_none]
                refine iff_of_false (by simp) ?_
                rintro ⟨-, hname, htaken⟩
                rcases hskip with rfl | hskip
                · exact htaken.outside (List.prefix_append _ _)
                · rw [hname rfl] at hskip
                  cases hskip
              · have hout' := outside_concat hout fun heq => hskip (.inl heq)
                have hname : isSkipped name = false := by simpa using fun h => hskip (.inr h)
                rw [if_neg hskip, Option.bind_some,
                  bareAt_kept hdest down hget (ht.find? hfind).2.2 hout', Node.bareAt_append hget]
                simp [hname]

/-- The names of entries are joined to a path one by one. -/
theorem addressable_of : ∀ {entries : Entries} {base : String}, entries.IsTree →
    (∀ down, down ≠ [] → (Node.directory entries).bareAt down ≠ none →
      IsUsable (down.foldl Path.join base)) → Addressable base entries
  | .nil, _, _, _ => trivial
  | .cons name node rest, base, ⟨_, _, hnew, hnode, hrest⟩, h => by
      have hbelow (down : Location) (hdown : node.bareAt down ≠ none) :
          IsUsable (down.foldl Path.join (Path.join base name)) := by
        refine h (name :: down) (by simp) ?_
        rwa [Node.bareAt_cons, Entries.find?_cons, if_pos rfl, Option.bind_some]
      have hself : IsUsable (Path.join base name) := hbelow [] (by simp [Node.bareAt])
      have hothers : Addressable base rest := by
        refine addressable_of hrest fun down hne hdown => h down hne ?_
        obtain ⟨found, hfound⟩ := Option.ne_none_iff_exists'.mp
          (mt Option.map_eq_none_iff.mpr hdown)
        rw [Node.bareAt, (Node.get?_cons_entries hnew hne).mpr (.inr hfound)]
        simp
      cases node with
      | file contents executable => exact ⟨hself, hothers⟩
      | link target => exact ⟨hself, hothers⟩
      | directory inner =>
          exact ⟨hself, addressable_of hnode fun down _ hdown => hbelow down hdown, hothers⟩

theorem Addressable.find? {name base : String} {child : Node} : ∀ {entries : Entries},
    Addressable base entries → entries.find? name = some child →
      IsUsable (Path.join base name) ∧
        ∀ inner, child = .directory inner → Addressable (Path.join base name) inner
  | .nil, _, hfind => by cases hfind
  | .cons first node rest, h, hfind => by
      have hrest : Addressable base rest := by
        cases node with
        | file contents executable => exact h.2
        | link target => exact h.2
        | directory inner => exact h.2.2
      rw [Entries.find?_cons] at hfind
      split at hfind
      · next heq =>
          subst heq
          cases hfind
          refine ⟨h.head, fun inner hinner => ?_⟩
          subst hinner
          exact h.2.1
      · exact hrest.find? hfind

theorem Addressable.isUsable_foldl {down : Location} {base : String} {entries : Entries}
    (h : Addressable base entries) (hne : down ≠ [])
    (hdown : (Node.directory entries).bareAt down ≠ none) :
    IsUsable (down.foldl Path.join base) := by
  induction down generalizing base entries with
  | nil => exact absurd rfl hne
  | cons name rest ih =>
      rw [Node.bareAt_cons] at hdown
      cases hfind : entries.find? name with
      | none => simp [hfind] at hdown
      | some child =>
          obtain ⟨hu, hinner⟩ := h.find? hfind
          rw [hfind, Option.bind_some] at hdown
          rcases rest with _ | ⟨next, more⟩
          · exact hu
          · cases child with
            | file contents executable => exact absurd rfl hdown
            | link target => exact absurd rfl hdown
            | directory inner => exact ih (hinner inner rfl) (by simp) hdown

end Workspace

end BuildMatrix
