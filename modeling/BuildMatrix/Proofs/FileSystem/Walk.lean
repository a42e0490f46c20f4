import BuildMatrix.FileSystem.Lookup
import BuildMatrix.Proofs.FileSystem.Tree

/-!
# Walks

A walk depends only on the kinds of the nodes that it passes. Where names lead, with every link on
the way followed, is a relation that survives all changes in a region that the walk avoids. A walk
that stays inside of a directory is the same wherever this directory is.
-/

namespace BuildMatrix

def Place.below (base : Location) : Place → Place
  | .present location node => .present (base ++ location) node
  | .absent location => .absent (base ++ location)

def Place.location : Place → Location
  | .present location _ | .absent location => location

namespace FileSystem

open Node (kindAt)

def IsEntryName (name : String) : Prop :=
  name ≠ "." ∧ name ≠ ".." ∧ name.utf8ByteSize ≤ nameLimit

instance (name : String) : Decidable (IsEntryName name) :=
  inferInstanceAs (Decidable (name ≠ "." ∧ name ≠ ".." ∧ name.utf8ByteSize ≤ nameLimit))

theorem walk_nil (root : Node) (follow : Bool) (links : Nat) (location : Location) :
    walk root follow links location [] = match root.get? location with
      | some node => .ok (.present location node)
      | none => .error .missing := by
  cases links <;> rfl

section
variable {root : Node} {follow : Bool} {links : Nat} {location : Location} {entries : Entries}
  {name : String} {rest : List String}

theorem walk_here (h : root.get? location = some (.directory entries)) :
    walk root follow links location ("." :: rest) = walk root follow links location rest := by
  cases links <;> simp [walk, walkNames, h]

theorem walk_up (h : root.get? location = some (.directory entries)) :
    walk root follow links location (".." :: rest) =
      walk root follow links location.dropLast rest := by
  cases links <;> simp [walk, walkNames, h]

theorem walk_missing (h : root.get? location = some (.directory entries)) (hn : IsEntryName name)
    (hf : entries.find? name = none) : walk root follow links location (name :: rest) =
      if rest.isEmpty then .ok (.absent (location ++ [name])) else .error .missing := by
  obtain ⟨hdot, hdots, hsize⟩ := hn
  have hsize : ¬name.utf8ByteSize > nameLimit := by omega
  cases links <;> simp [walk, walkNames, h, hdot, hdots, hsize, hf]

theorem walk_down (h : root.get? location = some (.directory entries)) (hn : IsEntryName name)
    {child : Node} (hf : entries.find? name = some child)
    (hlink : ∀ target, child ≠ .link target) : walk root follow links location (name :: rest) =
      walk root follow links (location ++ [name]) rest := by
  obtain ⟨hdot, hdots, hsize⟩ := hn
  have hsize : ¬name.utf8ByteSize > nameLimit := by omega
  cases child with
  | link target => exact absurd rfl (hlink target)
  | file contents executable =>
      cases links <;> simp [walk, walkNames, h, hdot, hdots, hsize, hf]
  | directory inner => cases links <;> simp [walk, walkNames, h, hdot, hdots, hsize, hf]

theorem walk_link (h : root.get? location = some (.directory entries)) (hn : IsEntryName name)
    {target : String} (hf : entries.find? name = some (.link target)) :
    walk root false links location [name] = .ok (.present (location ++ [name]) (.link target)) := by
  obtain ⟨hdot, hdots, hsize⟩ := hn
  have hsize : ¬name.utf8ByteSize > nameLimit := by omega
  cases links <;> simp [walk, walkNames, h, hdot, hdots, hsize, hf]

theorem walk_through (h : root.get? location = some (.directory entries)) (hn : IsEntryName name)
    {target : String} (hf : entries.find? name = some (.link target))
    (hfollow : rest ≠ [] ∨ follow = true) (htarget : target ≠ "") :
    walk root follow (links + 1) location (name :: rest) =
      walk root follow links (if Path.isAbsolute target then [] else location)
        (Path.names target ++ rest) := by
  obtain ⟨hdot, hdots, hsize⟩ := hn
  have hsize : ¬name.utf8ByteSize > nameLimit := by omega
  have hfollow : (rest.isEmpty && !follow) = false := by
    rcases hfollow with hrest | hfollow
    · cases rest with
      | nil => exact absurd rfl hrest
      | cons n rest => rfl
    · simp [hfollow]
  have htarget : target.isEmpty = false := by simpa using htarget
  simp [walk, walkNames, h, hdot, hdots, hsize, hf, hfollow, htarget]

end

theorem get?_of_kindAt {root : Node} {location : Location}
    (h : root.kindAt location = some .directory) :
    ∃ entries, root.get? location = some (.directory entries) := by
  obtain ⟨node, hnode, hkind⟩ := Option.map_eq_some_iff.mp h
  cases node with
  | file contents executable => simp [Node.kind] at hkind
  | link target => simp [Node.kind] at hkind
  | directory entries => exact ⟨entries, hnode⟩

theorem kindAt_of_get? {root : Node} {location : Location} {node : Node}
    (h : root.get? location = some node) : root.kindAt location = some node.kind := by
  simp [kindAt, h]

theorem exists_entry_of_kindAt {root : Node} {location : Location} {name : String}
    {kind : Node.Kind} (h : root.kindAt (location ++ [name]) = some kind) :
    ∃ entries child, root.get? location = some (.directory entries) ∧
      entries.find? name = some child ∧ child.kind = kind := by
  obtain ⟨child, hchild, hkind⟩ := Option.map_eq_some_iff.mp h
  obtain ⟨entries, he, hf⟩ := Node.get?_dropLast hchild
  exact ⟨entries, child, he, hf, hkind⟩

theorem exists_link_of_kindAt {root : Node} {location : Location} {name target : String}
    (h : root.kindAt (location ++ [name]) = some (.link target)) :
    ∃ entries, root.get? location = some (.directory entries) ∧
      entries.find? name = some (.link target) := by
  obtain ⟨entries, child, he, hf, hkind⟩ := exists_entry_of_kindAt h
  cases child with
  | file contents executable => simp [Node.kind] at hkind
  | directory inner => simp [Node.kind] at hkind
  | link other =>
      obtain rfl : other = target := by simpa [Node.kind] using hkind
      exact ⟨entries, he, hf⟩

/-- Where names lead from a location, with all links followed and outside of a region. -/
inductive Leads (avoid : Location → Prop) (root : Node) :
    (links : Nat) → Location → List String → (links' : Nat) → Location → Prop
  | done {links : Nat} {location : Location} : Leads avoid root links location [] links location
  | here {links links' : Nat} {location location' : Location} {rest : List String} :
      root.kindAt location = some .directory →
      Leads avoid root links location rest links' location' →
      Leads avoid root links location ("." :: rest) links' location'
  | up {links links' : Nat} {location location' : Location} {rest : List String} :
      root.kindAt location = some .directory →
      Leads avoid root links location.dropLast rest links' location' →
      Leads avoid root links location (".." :: rest) links' location'
  | down {links links' : Nat} {location location' : Location} {name : String} {rest : List String}
      {kind : Node.Kind} : IsEntryName name → root.kindAt (location ++ [name]) = some kind →
      (∀ target, kind ≠ .link target) → ¬avoid (location ++ [name]) →
      Leads avoid root links (location ++ [name]) rest links' location' →
      Leads avoid root links location (name :: rest) links' location'
  | through {links links' : Nat} {location location' : Location} {name : String}
      {rest : List String} {target : String} : IsEntryName name →
      root.kindAt (location ++ [name]) = some (.link target) → target ≠ "" →
      ¬avoid (location ++ [name]) →
      Leads avoid root links (if Path.isAbsolute target then [] else location)
        (Path.names target ++ rest) links' location' →
      Leads avoid root (links + 1) location (name :: rest) links' location'

namespace Leads

section
variable {avoid avoid' : Location → Prop} {root root' : Node} {links links' links'' : Nat}
  {location location' location'' : Location} {names names' : List String}

theorem mono (havoid : ∀ l, avoid' l → avoid l)
    (h : Leads avoid root links location names links' location') :
    Leads avoid' root links location names links' location' := by
  induction h with
  | done => exact .done
  | here hd _ ih => exact .here hd ih
  | up hd _ ih => exact .up hd ih
  | down hn hk hl ha _ ih => exact .down hn hk hl (fun h => ha (havoid _ h)) ih
  | through hn hk ht ha _ ih => exact .through hn hk ht (fun h => ha (havoid _ h)) ih

theorem append (h : Leads avoid root links location names links' location')
    (h' : Leads avoid root links' location' names' links'' location'') :
    Leads avoid root links location (names ++ names') links'' location'' := by
  induction h with
  | done => exact h'
  | here hd _ ih => exact .here hd (ih h')
  | up hd _ ih => exact .up hd (ih h')
  | down hn hk hl ha _ ih => exact .down hn hk hl ha (ih h')
  | through hn hk ht ha _ ih =>
      have hrest := ih h'
      rw [List.append_assoc] at hrest
      exact .through hn hk ht ha hrest

theorem split (h : Leads avoid root links location (names ++ names') links' location') :
    ∃ links₁ location₁, Leads avoid root links location names links₁ location₁ ∧
      Leads avoid root links₁ location₁ names' links' location' := by
  generalize hall : names ++ names' = all at h
  induction h generalizing names with
  | done =>
      obtain ⟨rfl, rfl⟩ := List.append_eq_nil_iff.mp hall
      exact ⟨_, _, .done, .done⟩
  | here hd hrest ih =>
      cases names with
      | nil => exact ⟨_, _, .done, by rw [List.nil_append] at hall; exact hall ▸ .here hd hrest⟩
      | cons n names =>
          obtain ⟨rfl, hrest'⟩ := List.cons.inj hall
          obtain ⟨l, loc, h₁, h₂⟩ := ih hrest'
          exact ⟨l, loc, .here hd h₁, h₂⟩
  | up hd hrest ih =>
      cases names with
      | nil => exact ⟨_, _, .done, by rw [List.nil_append] at hall; exact hall ▸ .up hd hrest⟩
      | cons n names =>
          obtain ⟨rfl, hrest'⟩ := List.cons.inj hall
          obtain ⟨l, loc, h₁, h₂⟩ := ih hrest'
          exact ⟨l, loc, .up hd h₁, h₂⟩
  | down hn hk hl ha hrest ih =>
      cases names with
      | nil =>
          exact ⟨_, _, .done, by rw [List.nil_append] at hall; exact hall ▸ .down hn hk hl ha hrest⟩
      | cons n names =>
          obtain ⟨rfl, hrest'⟩ := List.cons.inj hall
          obtain ⟨l, loc, h₁, h₂⟩ := ih hrest'
          exact ⟨l, loc, .down hn hk hl ha h₁, h₂⟩
  | through hn hk ht ha hrest ih =>
      cases names with
      | nil =>
          exact ⟨_, _, .done, by
            rw [List.nil_append] at hall
            exact hall ▸ .through hn hk ht ha hrest⟩
      | cons n names =>
          obtain ⟨rfl, rfl⟩ := List.cons.inj hall
          obtain ⟨l, loc, h₁, h₂⟩ := ih (List.append_assoc _ _ _)
          exact ⟨l, loc, .through hn hk ht ha h₁, h₂⟩

theorem cons_inv {name : String}
    (h : Leads avoid root links location (name :: names) links' location') :
    (name = "." ∧ Leads avoid root links location names links' location') ∨
    (name = ".." ∧ Leads avoid root links location.dropLast names links' location') ∨
    (∃ kind, IsEntryName name ∧ root.kindAt (location ++ [name]) = some kind ∧
      (∀ target, kind ≠ .link target) ∧
      Leads avoid root links (location ++ [name]) names links' location') ∨
    (∃ target links₁, IsEntryName name ∧ root.kindAt (location ++ [name]) = some (.link target) ∧
      links = links₁ + 1 ∧ Leads avoid root links₁ (if Path.isAbsolute target then [] else location)
        (Path.names target ++ names) links' location') := by
  cases h with
  | here _ h => exact .inl ⟨rfl, h⟩
  | up _ h => exact .inr (.inl ⟨rfl, h⟩)
  | down hn hk hl _ h => exact .inr (.inr (.inl ⟨_, hn, hk, hl, h⟩))
  | through hn hk _ _ h => exact .inr (.inr (.inr ⟨_, _, hn, hk, rfl, h⟩))

theorem unique (h : Leads avoid root links location names links' location')
    (h' : Leads avoid' root links location names links'' location'') :
    links' = links'' ∧ location' = location'' := by
  induction h with
  | done => cases h'; exact ⟨rfl, rfl⟩
  | here _ _ ih =>
      rcases cons_inv h' with ⟨-, h'⟩ | ⟨hn, -⟩ | ⟨_, hn, -⟩ | ⟨_, _, hn, -⟩
      · exact ih h'
      · simp at hn
      · exact absurd rfl hn.1
      · exact absurd rfl hn.1
  | up _ _ ih =>
      rcases cons_inv h' with ⟨hn, -⟩ | ⟨-, h'⟩ | ⟨_, hn, -⟩ | ⟨_, _, hn, -⟩
      · simp at hn
      · exact ih h'
      · exact absurd rfl hn.2.1
      · exact absurd rfl hn.2.1
  | down hn hk hl _ _ ih =>
      rcases cons_inv h' with ⟨rfl, -⟩ | ⟨rfl, -⟩ | ⟨_, -, -, -, h'⟩ | ⟨_, _, -, hk', -⟩
      · exact absurd rfl hn.1
      · exact absurd rfl hn.2.1
      · exact ih h'
      · rw [hk, Option.some.injEq] at hk'
        exact absurd hk' (hl _)
  | through hn hk _ _ _ ih =>
      rcases cons_inv h' with ⟨rfl, -⟩ | ⟨rfl, -⟩ | ⟨_, -, hk', hl', -⟩ | ⟨_, _, -, hk', hlinks, h'⟩
      · exact absurd rfl hn.1
      · exact absurd rfl hn.2.1
      · rw [hk, Option.some.injEq] at hk'
        exact absurd hk'.symm (hl' _)
      · rw [hk, Option.some.injEq, Node.Kind.link.injEq] at hk'
        subst hk'
        obtain rfl := Nat.succ.inj hlinks
        exact ih h'

/-- Names lead to the same place after all changes in the region that is avoided. -/
theorem frame (hclosed : ∀ l l', avoid l → l <+: l' → avoid l')
    (hsame : ∀ l, ¬avoid l → root'.kindAt l = root.kindAt l) (hstart : ¬avoid location)
    (h : Leads avoid root links location names links' location') :
    Leads avoid root' links location names links' location' ∧ ¬avoid location' := by
  induction h with
  | done => exact ⟨.done, hstart⟩
  | here hd _ ih =>
      obtain ⟨hleads, hend⟩ := ih hstart
      exact ⟨.here ((hsame _ hstart).trans hd) hleads, hend⟩
  | up hd _ ih =>
      obtain ⟨hleads, hend⟩ := ih fun h => hstart (hclosed _ _ h (List.dropLast_prefix _))
      exact ⟨.up ((hsame _ hstart).trans hd) hleads, hend⟩
  | down hn hk hl ha _ ih =>
      obtain ⟨hleads, hend⟩ := ih ha
      exact ⟨.down hn ((hsame _ ha).trans hk) hl ha hleads, hend⟩
  | through hn hk ht ha _ ih =>
      obtain ⟨hleads, hend⟩ := ih (by
        split
        · exact fun h => hstart (hclosed _ _ h List.nil_prefix)
        · exact hstart)
      exact ⟨.through hn ((hsame _ ha).trans hk) ht ha hleads, hend⟩

/-- What leads somewhere avoids everything that is not there. -/
theorem avoid_absent {absent : Location → Prop} (habsent : ∀ l, absent l → root.kindAt l = none)
    (h : Leads avoid root links location names links' location') :
    Leads (fun l => avoid l ∨ absent l) root links location names links' location' := by
  have hpresent {l : Location} {kind : Node.Kind} (hk : root.kindAt l = some kind)
      (ha : ¬avoid l) : ¬(avoid l ∨ absent l) := by
    rintro (h | h)
    · exact ha h
    · simp [habsent l h] at hk
  induction h with
  | done => exact .done
  | here hd _ ih => exact .here hd ih
  | up hd _ ih => exact .up hd ih
  | down hn hk hl ha _ ih => exact .down hn hk hl (hpresent hk ha) ih
  | through hn hk ht ha _ ih => exact .through hn hk ht (hpresent hk ha) ih

theorem start_present (h : Leads avoid root links location names links' location')
    (hend : root.kindAt location' ≠ none) : root.kindAt location ≠ none := by
  have habove {l : Location} {name : String} {kind : Node.Kind}
      (hk : root.kindAt (l ++ [name]) = some kind) : root.kindAt l ≠ none := by
    obtain ⟨entries, -, he, -⟩ := exists_entry_of_kindAt hk
    simp [kindAt, he]
  cases h with
  | done => exact hend
  | here hd _ => simp [hd]
  | up hd _ => simp [hd]
  | down _ hk _ _ _ => exact habove hk
  | through _ hk _ _ _ => exact habove hk

/-- A walk goes on where the names before lead. -/
theorem walk_append (h : Leads avoid root links location names links' location') {follow : Bool}
    (hfollow : names' ≠ [] ∨ follow = true) :
    walk root follow links location (names ++ names') =
      walk root follow links' location' names' := by
  induction h with
  | done => rfl
  | here hd _ ih =>
      obtain ⟨entries, he⟩ := get?_of_kindAt hd
      rw [List.cons_append, walk_here he]
      exact ih
  | up hd _ ih =>
      obtain ⟨entries, he⟩ := get?_of_kindAt hd
      rw [List.cons_append, walk_up he]
      exact ih
  | down hn hk hl _ _ ih =>
      obtain ⟨entries, child, he, hf, rfl⟩ := exists_entry_of_kindAt hk
      rw [List.cons_append, walk_down he hn hf]
      · exact ih
      · rintro target rfl
        exact hl target rfl
  | through hn hk ht _ _ ih =>
      obtain ⟨entries, he, hf⟩ := exists_link_of_kindAt hk
      rw [List.cons_append, walk_through he hn hf ?_ ht, ← List.append_assoc]
      · exact ih
      · rcases hfollow with hnames | hfollow
        · exact .inl (by simp [hnames])
        · exact .inr hfollow

theorem without_dots (front back : List String)
    (h : Leads avoid root links location (front ++ back) links' location') :
    Leads avoid root links location (front ++ back.filter (· ≠ ".")) links' location' := by
  generalize hall : front ++ back = all at h
  induction h generalizing front back with
  | done =>
      obtain ⟨rfl, rfl⟩ := List.append_eq_nil_iff.mp hall
      exact .done
  | here hd _ ih =>
      cases front with
      | nil =>
          rw [List.nil_append] at hall
          subst hall
          rw [List.nil_append, List.filter_cons_of_neg (by simp)]
          exact ih [] _ rfl
      | cons n front =>
          obtain ⟨rfl, hrest⟩ := List.cons.inj hall
          exact .here hd (ih front back hrest)
  | up hd _ ih =>
      cases front with
      | nil =>
          rw [List.nil_append] at hall
          subst hall
          exact .up hd (ih [] _ rfl)
      | cons n front =>
          obtain ⟨rfl, hrest⟩ := List.cons.inj hall
          exact .up hd (ih front back hrest)
  | down hn hk hl ha _ ih =>
      cases front with
      | nil =>
          rw [List.nil_append] at hall
          subst hall
          rw [List.nil_append, List.filter_cons_of_pos (by simpa using hn.1)]
          exact .down hn hk hl ha (ih [] _ rfl)
      | cons n front =>
          obtain ⟨rfl, hrest⟩ := List.cons.inj hall
          exact .down hn hk hl ha (ih front back hrest)
  | through hn hk ht ha _ ih =>
      cases front with
      | nil =>
          rw [List.nil_append] at hall
          subst hall
          rw [List.nil_append, List.filter_cons_of_pos (by simpa using hn.1)]
          exact .through hn hk ht ha (ih _ _ rfl)
      | cons n front =>
          obtain ⟨rfl, rfl⟩ := List.cons.inj hall
          refine .through hn hk ht ha ?_
          have hrest := ih _ back (List.append_assoc _ _ _)
          rwa [List.append_assoc] at hrest

end

end Leads

/-- Whether following names never leaves a tree; `enter` tells it of links. -/
def namesStayInside (tree : Node) (enter : Location → String → List String → Bool) :
    Location → List String → Bool
  | _, [] => true
  | location, name :: rest =>
    match tree.get? location with
    | some (.directory entries) =>
      if name = "." then namesStayInside tree enter location rest
      else if name = ".." then
        !location.isEmpty && namesStayInside tree enter location.dropLast rest
      else match entries.find? name with
        | some (.link target) => enter location target rest
        | _ => namesStayInside tree enter (location ++ [name]) rest
    | _ => true

/-- Whether a walk never leaves a tree: it does not go up from its root, and every link that it
passes is relative. -/
def staysInside (tree : Node) : (links : Nat) → Location → List String → Bool
  | 0 => namesStayInside tree fun _ _ _ => true
  | links + 1 => namesStayInside tree fun location target rest =>
    !Path.isAbsolute target && staysInside tree links location (Path.names target ++ rest)

section
variable {root tree : Node} {base : Location} {follow : Bool}

theorem walkNames_inside (hbase : root.get? base = some tree)
    {enter enter' : Location → String → List String → Except FileError Place}
    {stays : Location → String → List String → Bool}
    (henter : ∀ location target rest, stays location target rest →
      enter (base ++ location) target rest = (enter' location target rest).map (Place.below base))
    {location : Location} {names : List String}
    (h : namesStayInside tree stays location names) :
    walkNames root follow enter (base ++ location) names =
      (walkNames tree follow enter' location names).map (Place.below base) := by
  have hget (location : Location) : root.get? (base ++ location) = tree.get? location := by
    rw [Node.get?_append, hbase, Option.bind_some]
  induction names generalizing location with
  | nil =>
      simp only [walkNames, hget]
      cases tree.get? location <;> rfl
  | cons name rest ih =>
      simp only [walkNames, hget, namesStayInside] at h ⊢
      cases hnode : tree.get? location with
      | none => rfl
      | some node =>
          cases node with
          | file contents executable => rfl
          | link target => rfl
          | directory entries =>
              simp only [hnode] at h ⊢
              by_cases hdot : name = "."
              · simp only [hdot, if_true] at h ⊢
                exact ih h
              by_cases hdots : name = ".."
              · simp only [hdots, String.reduceEq, if_false, if_true, Bool.and_eq_true] at h ⊢
                have hne : location ≠ [] := by
                  rintro rfl
                  simp at h
                rw [List.dropLast_append_of_ne_nil hne]
                exact ih h.2
              simp only [hdot, hdots, if_false] at h ⊢
              by_cases hsize : name.utf8ByteSize > nameLimit
              · simp only [hsize, if_true]
                rfl
              simp only [hsize, if_false]
              cases hf : entries.find? name with
              | none =>
                  cases rest with
                  | nil => simp [Except.map, Place.below]
                  | cons n rest => simp [Except.map]
              | some child =>
                  cases child with
                  | file contents executable =>
                      simp only [hf] at h ⊢
                      rw [List.append_assoc]
                      exact ih h
                  | directory inner =>
                      simp only [hf] at h ⊢
                      rw [List.append_assoc]
                      exact ih h
                  | link target =>
                      simp only [hf] at h ⊢
                      split
                      · simp [Except.map, Place.below]
                      · exact henter location target rest h

/-- A walk that stays inside of a tree is the same wherever the tree is. -/
theorem walk_inside (hbase : root.get? base = some tree) {links : Nat} {location : Location}
    {names : List String} (h : staysInside tree links location names) :
    walk root follow links (base ++ location) names =
      (walk tree follow links location names).map (Place.below base) := by
  induction links generalizing location names with
  | zero => exact walkNames_inside hbase (fun _ _ _ _ => rfl) h
  | succ links ih =>
      refine walkNames_inside hbase (fun location target rest hs => ?_) h
      simp only [Bool.and_eq_true, Bool.not_eq_true'] at hs
      by_cases ht : target.isEmpty
      · simp [ht, Except.map]
      · simp only [ht, Bool.false_eq_true, if_false, hs.1]
        exact ih hs.2

end

section
variable {root : Node} {follow : Bool}

/-- How a walk that finds a place goes on from a directory with the first of its names. -/
inductive Steps (root : Node) (follow : Bool)
    (enter : Location → String → List String → Except FileError Place) (location : Location)
    (entries : Entries) (name : String) (rest : List String) (place : Place) : Prop
  | here : name = "." → walkNames root follow enter location rest = .ok place →
      Steps root follow enter location entries name rest place
  | up : name = ".." → walkNames root follow enter location.dropLast rest = .ok place →
      Steps root follow enter location entries name rest place
  | absent : IsEntryName name → entries.find? name = none → rest = [] →
      place = .absent (location ++ [name]) → Steps root follow enter location entries name rest place
  | link (target : String) : IsEntryName name → entries.find? name = some (.link target) →
      rest = [] → follow = false → place = .present (location ++ [name]) (.link target) →
      Steps root follow enter location entries name rest place
  | through (target : String) : IsEntryName name → entries.find? name = some (.link target) →
      enter location target rest = .ok place →
      Steps root follow enter location entries name rest place
  | down (child : Node) : IsEntryName name → entries.find? name = some child →
      (∀ target, child ≠ .link target) →
      walkNames root follow enter (location ++ [name]) rest = .ok place →
      Steps root follow enter location entries name rest place

section
variable {enter : Location → String → List String → Except FileError Place} {location : Location}
  {name : String} {rest : List String} {place : Place}

theorem found_of_walkNames_nil (h : walkNames root follow enter location [] = .ok place) :
    ∃ node, root.get? location = some node ∧ place = .present location node := by
  rw [walkNames] at h
  split at h
  · next node hnode =>
      cases h
      exact ⟨node, hnode, rfl⟩
  · cases h

theorem steps_of_walkNames (h : walkNames root follow enter location (name :: rest) = .ok place) :
    ∃ entries, root.get? location = some (.directory entries) ∧
      Steps root follow enter location entries name rest place := by
  rw [walkNames] at h
  split at h
  · next entries he =>
      refine ⟨entries, he, ?_⟩
      by_cases hdot : name = "."
      · exact .here hdot (by simpa [hdot] using h)
      by_cases hdots : name = ".."
      · exact .up hdots (by simpa [hdots] using h)
      simp only [hdot, hdots, if_false] at h
      split at h
      · cases h
      next hsize =>
      have hn : IsEntryName name := ⟨hdot, hdots, by omega⟩
      split at h
      · next hf =>
          split at h
          · next hempty =>
              cases h
              exact .absent hn hf (by simpa using hempty) rfl
          · cases h
      · next target hf =>
          split at h
          · next hlast =>
              cases h
              simp only [Bool.and_eq_true, List.isEmpty_iff, Bool.not_eq_true'] at hlast
              exact .link target hn hf hlast.1 hlast.2 rfl
          · exact .through target hn hf h
      · next child hlink hf => exact .down child hn hf (fun target hc => hlink target hc) h
  · cases h
  · cases h

end

theorem walkNames_unlinked {enter : Location → String → List String → Except FileError Place}
    {location : Location} {names : List String}
    (hlinks : ∀ passed, passed ≠ [] → passed <+: names.filter (· ≠ ".") →
      ∀ target, root.kindAt (location ++ passed) ≠ some (.link target))
    (hnames : ".." ∉ names) {place : Place}
    (h : walkNames root follow enter location names = .ok place) :
    place.location = location ++ names.filter (· ≠ ".") := by
  induction names generalizing location with
  | nil =>
      obtain ⟨node, -, rfl⟩ := found_of_walkNames_nil h
      simp [Place.location]
  | cons name rest ih =>
      have hrest : ".." ∉ rest := fun hm => hnames (List.mem_cons_of_mem _ hm)
      obtain ⟨entries, he, hstep⟩ := steps_of_walkNames h
      have hfilter (hn : IsEntryName name) : (name :: rest).filter (· ≠ ".") =
          name :: rest.filter (· ≠ ".") := List.filter_cons_of_pos (by simpa using hn.1)
      have hunlinked (hn : IsEntryName name) (target : String) :
          entries.find? name ≠ some (.link target) := by
        intro hf
        refine hlinks [name] (by simp) ?_ target
          (kindAt_of_get? ((Node.get?_concat he name).trans hf))
        rw [hfilter hn]
        exact List.cons_prefix_cons.mpr ⟨rfl, List.nil_prefix⟩
      cases hstep with
      | here hdot hwalk =>
          subst hdot
          rw [List.filter_cons_of_neg (by simp)] at hlinks ⊢
          exact ih hlinks hrest hwalk
      | up hdots _ => exact absurd (hdots ▸ List.mem_cons_self) hnames
      | absent hn hf hlast hplace =>
          subst hlast hplace
          rw [hfilter hn]
          rfl
      | link target hn hf _ _ _ => exact absurd hf (hunlinked hn target)
      | through target hn hf _ => exact absurd hf (hunlinked hn target)
      | down child hn hf _ hwalk =>
          rw [hfilter hn] at hlinks ⊢
          have hnext := ih (fun passed hne hp target => by
            rw [List.append_assoc]
            exact hlinks ([name] ++ passed) (by simp)
              (List.cons_prefix_cons.mpr ⟨rfl, hp⟩) target) hrest hwalk
          rw [hnext, List.append_assoc]
          rfl

/-- Without links and without dots that lead upwards, a place is where its names say. -/
theorem walk_unlinked {links : Nat} {location : Location} {names : List String}
    (hlinks : ∀ passed, passed ≠ [] → passed <+: names.filter (· ≠ ".") →
      ∀ target, root.kindAt (location ++ passed) ≠ some (.link target))
    (hnames : ".." ∉ names) {place : Place}
    (h : walk root follow links location names = .ok place) :
    place.location = location ++ names.filter (· ≠ ".") := by
  cases links with
  | zero => exact walkNames_unlinked hlinks hnames h
  | succ links => exact walkNames_unlinked hlinks hnames h

/-- What a place tells of the tree: the node that is present, or the directory in which there is
none of a name. -/
def Found (root : Node) : Place → Prop
  | .present location node => root.get? location = some node
  | .absent location => ∃ parent entries name, location = parent ++ [name] ∧ IsEntryName name ∧
    root.get? parent = some (.directory entries) ∧ entries.find? name = none

theorem walkNames_found {enter : Location → String → List String → Except FileError Place}
    (henter : ∀ location target rest place, enter location target rest = .ok place →
      Found root place) {location : Location} {names : List String} {place : Place}
    (h : walkNames root follow enter location names = .ok place) : Found root place := by
  induction names generalizing location with
  | nil =>
      obtain ⟨node, hnode, rfl⟩ := found_of_walkNames_nil h
      exact hnode
  | cons name rest ih =>
      obtain ⟨entries, he, hstep⟩ := steps_of_walkNames h
      cases hstep with
      | here _ hwalk => exact ih hwalk
      | up _ hwalk => exact ih hwalk
      | absent hn hf _ hplace =>
          subst hplace
          exact ⟨location, entries, name, rfl, hn, he, hf⟩
      | link target _ hf _ _ hplace =>
          subst hplace
          exact (Node.get?_concat he name).trans hf
      | through target _ _ henters => exact henter _ _ _ _ henters
      | down child _ _ _ hwalk => exact ih hwalk

theorem walk_found {links : Nat} {location : Location} {names : List String} {place : Place}
    (h : walk root follow links location names = .ok place) : Found root place := by
  induction links generalizing location names place with
  | zero => exact walkNames_found (by simp) h
  | succ links ih =>
      refine walkNames_found (fun location target rest place hp => ?_) h
      split at hp
      · cases hp
      · exact ih hp

theorem Leads.not_absent {avoid : Location → Prop} {links links' : Nat}
    {location location' absent : Location} {names : List String}
    (h : Leads avoid root links location names links' location') :
    walk root follow links location names ≠ .ok (.absent absent) := by
  induction h with
  | done =>
      rw [walk_nil]
      split <;> simp
  | here hd _ ih =>
      obtain ⟨entries, he⟩ := get?_of_kindAt hd
      rwa [walk_here he]
  | up hd _ ih =>
      obtain ⟨entries, he⟩ := get?_of_kindAt hd
      rwa [walk_up he]
  | down hn hk hl _ _ ih =>
      obtain ⟨entries, child, he, hf, rfl⟩ := exists_entry_of_kindAt hk
      rw [walk_down he hn hf]
      · exact ih
      · rintro target rfl
        exact hl target rfl
  | @through links links' location location' name rest target hn hk ht _ _ ih =>
      obtain ⟨entries, he, hf⟩ := exists_link_of_kindAt hk
      by_cases hfollow : rest ≠ [] ∨ follow = true
      · rw [walk_through he hn hf hfollow ht]
        exact ih
      · obtain ⟨rfl, rfl⟩ : rest = [] ∧ follow = false := by simpa using hfollow
        rw [walk_link he hn hf]
        simp

end

end FileSystem

end BuildMatrix
