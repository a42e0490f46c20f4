import BuildMatrix.Proofs.FileSystem.Reaching

/-!
# Well-formed trees

The names in a tree are names of entries, and no directory has two entries of one name. A file is
put, and a directory is made, under a name of its path or of a link, so a tree stays well-formed.
-/

namespace BuildMatrix

open FileSystem

mutual

/-- Whether the names of a tree are names of entries and distinct in each directory. -/
def Node.IsTree : Node → Prop
  | .directory entries => entries.IsTree
  | _ => True

def Entries.IsTree : Entries → Prop
  | .nil => True
  | .cons name node rest =>
    IsName name ∧ IsEntryName name ∧ rest.find? name = none ∧ node.IsTree ∧ rest.IsTree

end

mutual

instance Node.decidableIsTree : (node : Node) → Decidable node.IsTree
  | .file .. => .isTrue trivial
  | .link _ => .isTrue trivial
  | .directory entries => Entries.decidableIsTree entries

instance Entries.decidableIsTree : (entries : Entries) → Decidable entries.IsTree
  | .nil => .isTrue trivial
  | .cons name node rest =>
    have := Node.decidableIsTree node
    have := Entries.decidableIsTree rest
    inferInstanceAs (Decidable (IsName name ∧ IsEntryName name ∧
      rest.find? name = none ∧ node.IsTree ∧ rest.IsTree))

end

theorem Entries.IsTree.find? {name : String} {child : Node} : ∀ {entries : Entries},
    entries.IsTree → entries.find? name = some child →
      IsName name ∧ IsEntryName name ∧ child.IsTree
  | .nil, _, h => by simp at h
  | .cons n node rest, ht, h => by
      obtain ⟨hn, hname, -, hnode, hrest⟩ := ht
      rw [Entries.find?_cons] at h
      split at h
      · next heq =>
          cases h
          exact heq ▸ ⟨hn, hname, hnode⟩
      · exact hrest.find? h

theorem Entries.find?_of_tail {name : String} {node : Node} {entries rest : Entries}
    (hnew : rest.find? name = none)
    (h : ∀ other found, (Entries.cons name node rest).find? other = some found →
      entries.find? other = some found) (other : String) (found : Node)
    (hother : rest.find? other = some found) : entries.find? other = some found := by
  refine h other found ?_
  have hne : name ≠ other := by
    rintro rfl
    simp [hnew] at hother
  rw [Entries.find?_cons, if_neg hne, hother]

theorem Entries.IsTree.insert {name : String} {node : Node} (hname : IsName name)
    (hentry : IsEntryName name) (hnode : node.IsTree) : ∀ {entries : Entries},
    entries.IsTree → (entries.insert name node).IsTree
  | .nil, _ => ⟨hname, hentry, rfl, hnode, trivial⟩
  | .cons n old rest, ht => by
      obtain ⟨hn, hn', hnew, hold, hrest⟩ := ht
      by_cases heq : n = name
      · rw [Entries.insert, if_pos heq]
        exact ⟨hn, hn', hnew, hnode, hrest⟩
      · rw [Entries.insert, if_neg heq]
        refine ⟨hn, hn', ?_, hold, hrest.insert hname hentry hnode⟩
        rw [find?_insert_of_ne heq, hnew]

namespace Node

theorem IsTree.names {node found : Node} {location : Location} (ht : node.IsTree)
    (h : node.get? location = some found) :
    ∀ name ∈ location, IsName name ∧ IsEntryName name := by
  induction location generalizing node with
  | nil => simp
  | cons name rest ih =>
      obtain ⟨entries, child, rfl, hchild, hrest⟩ := exists_entry_of_get? h
      obtain ⟨hname, hentry, hinner⟩ := Entries.IsTree.find? ht hchild
      intro n hn
      rcases List.mem_cons.mp hn with rfl | hn
      · exact ⟨hname, hentry⟩
      · exact ih hinner hrest n hn

theorem IsTree.get? {node found : Node} {location : Location} (ht : node.IsTree)
    (h : node.get? location = some found) : found.IsTree := by
  induction location generalizing node with
  | nil =>
      obtain rfl : node = found := by simpa using h
      exact ht
  | cons name rest ih =>
      obtain ⟨entries, child, rfl, hchild, hrest⟩ := exists_entry_of_get? h
      obtain ⟨-, -, hinner⟩ := Entries.IsTree.find? ht hchild
      exact ih hinner hrest

theorem IsTree.place {node new : Node} {location : Location}
    (hlocation : ∀ name ∈ location, IsName name ∧ IsEntryName name) (ht : node.IsTree)
    (hnew : new.IsTree) : (node.place location new).IsTree := by
  induction location generalizing node with
  | nil =>
      rw [place_nil]
      exact hnew
  | cons name rest ih =>
      have hrest := fun n hn => hlocation n (List.mem_cons_of_mem name hn)
      obtain ⟨hname, hentry⟩ := hlocation name List.mem_cons_self
      cases node with
      | file contents executable => simpa [Node.place] using ht
      | link target => simpa [Node.place] using ht
      | directory entries =>
          cases rest with
          | nil => exact Entries.IsTree.insert hname hentry hnew ht
          | cons next rest =>
              cases hf : entries.find? name with
              | none =>
                  rw [Node.place, hf]
                  exact ht
              | some child =>
                  rw [place_cons hf]
                  exact Entries.IsTree.insert hname hentry
                    (ih hrest (Entries.IsTree.find? ht hf).2.2) ht

/-- The nodes below the first entry, and those of the other entries. -/
theorem get?_cons_entries {name : String} {node found : Node} {rest : Entries}
    (hnew : rest.find? name = none) {location : Location} (hne : location ≠ []) :
    (directory (.cons name node rest)).get? location = some found ↔
      (∃ more, location = name :: more ∧ node.get? more = some found) ∨
        (directory rest).get? location = some found := by
  cases location with
  | nil => exact absurd rfl hne
  | cons n more =>
      rw [get?_directory, get?_directory, Entries.find?_cons]
      by_cases hn : name = n
      · subst hn
        rw [if_pos rfl, Option.bind_some, hnew, Option.bind_none]
        simp
      · rw [if_neg hn]
        constructor
        · exact .inr
        · rintro (⟨more', heq, -⟩ | h)
          · exact absurd (List.cons.inj heq).1.symm hn
          · exact h

/-- Every node below entries is listed with its location. -/
theorem mem_entriesDescendants : ∀ (entries : Entries) (base : Location), entries.IsTree →
    ∀ (location : Location) (found : Node),
      (location, found) ∈ entriesDescendants base entries ↔
        ∃ rest, rest ≠ [] ∧ location = base ++ rest ∧
          (directory entries).get? rest = some found
  | .nil, base, _, location, found => by
      simp only [entriesDescendants, List.not_mem_nil, false_iff]
      rintro ⟨rest, hne, -, hget⟩
      rw [get?_nil_directory rest hne] at hget
      cases hget
  | .cons name node rest, base, ht, location, found => by
      obtain ⟨-, -, hnew, hnode, hrest⟩ := ht
      have hothers := mem_entriesDescendants rest base hrest location found
      have hbelow : (location, found) ∈ descendants (base ++ [name]) node ↔
          ∃ more, more ≠ [] ∧ location = base ++ [name] ++ more ∧ node.get? more = some found := by
        cases node with
        | file contents executable =>
            simp only [descendants, List.not_mem_nil, false_iff]
            rintro ⟨more, hne, -, hget⟩
            cases more with
            | nil => exact hne rfl
            | cons n more => cases hget
        | link target =>
            simp only [descendants, List.not_mem_nil, false_iff]
            rintro ⟨more, hne, -, hget⟩
            cases more with
            | nil => exact hne rfl
            | cons n more => cases hget
        | directory inner =>
            exact mem_entriesDescendants inner (base ++ [name]) hnode location found
      rw [entriesDescendants, List.mem_cons, List.mem_append, hbelow, hothers, Prod.mk.injEq]
      constructor
      · rintro (⟨rfl, rfl⟩ | ⟨more, hne, rfl, hget⟩ | ⟨more, hne, rfl, hget⟩)
        · exact ⟨[name], by simp, rfl, (get?_cons_entries hnew (by simp)).mpr
            (.inl ⟨[], rfl, get?_nil found⟩)⟩
        · exact ⟨name :: more, by simp, by simp, (get?_cons_entries hnew (by simp)).mpr
            (.inl ⟨more, rfl, hget⟩)⟩
        · exact ⟨more, hne, rfl, (get?_cons_entries hnew hne).mpr (.inr hget)⟩
      · rintro ⟨more, hne, rfl, hget⟩
        rcases (get?_cons_entries hnew hne).mp hget with ⟨deeper, rfl, hinner⟩ | hinner
        · cases deeper with
          | nil =>
              rw [get?_nil] at hinner
              exact .inl ⟨rfl, (Option.some.inj hinner).symm⟩
          | cons n deeper => exact .inr (.inl ⟨n :: deeper, by simp, by simp, hinner⟩)
        · exact .inr (.inr ⟨more, hne, rfl, hinner⟩)

end Node

namespace FileSystem

section
variable {root : Node} {follow : Bool}

/-- What a walk finds absent has one of the names that are followed. -/
theorem isName_of_walkNames {enter : Location → String → List String → Except FileError Place}
    (henter : ∀ location target rest found,
      (∀ name ∈ rest, name ≠ "." → name ≠ ".." → IsName name) →
        enter location target rest = .ok (.absent found) →
          ∃ parent name, found = parent ++ [name] ∧ IsName name)
    {location found : Location} {names : List String}
    (hnames : ∀ name ∈ names, name ≠ "." → name ≠ ".." → IsName name)
    (h : walkNames root follow enter location names = .ok (.absent found)) :
    ∃ parent name, found = parent ++ [name] ∧ IsName name := by
  induction names generalizing location with
  | nil =>
      obtain ⟨node, -, hplace⟩ := found_of_walkNames_nil h
      cases hplace
  | cons name rest ih =>
      obtain ⟨hname, hrest⟩ := List.forall_mem_cons.mp hnames
      obtain ⟨entries, -, hstep⟩ := steps_of_walkNames h
      cases hstep with
      | here _ hwalk => exact ih hrest hwalk
      | up _ hwalk => exact ih hrest hwalk
      | absent hn _ _ hplace =>
          cases hplace
          exact ⟨location, name, rfl, hname hn.1 hn.2.1⟩
      | link target _ _ _ _ hplace => cases hplace
      | through target _ _ henters => exact henter _ _ _ _ hrest henters
      | down child _ _ _ hwalk => exact ih hrest hwalk

theorem isName_of_walk {links : Nat} {location found : Location} {names : List String}
    (hnames : ∀ name ∈ names, name ≠ "." → name ≠ ".." → IsName name)
    (h : walk root follow links location names = .ok (.absent found)) :
    ∃ parent name, found = parent ++ [name] ∧ IsName name := by
  induction links generalizing location names found with
  | zero => exact isName_of_walkNames (by simp) hnames h
  | succ links ih =>
      refine isName_of_walkNames (fun location target rest found hrest hp => ?_) hnames h
      split at hp
      · cases hp
      · refine ih (fun name hname => ?_) hp
        rcases List.mem_append.mp hname with hname | hname
        · exact Path.isName_of_mem_names hname
        · exact hrest name hname

end

section
variable {fs fs' : FileSystem} {follow : Bool} {path : String} {place : Place} {new : Node}

/-- A tree stays well-formed if a tree is put where a look-up ends. -/
theorem isTree_placeAt (ht : fs.root.IsTree) (hl : fs.lookup follow path = .ok place)
    (hnew : new.IsTree) : (fs.placeAt place.location new).root.IsTree := by
  refine Node.IsTree.place ?_ ht hnew
  have hfound := found_of_lookup hl
  cases place with
  | present location node => exact ht.names hfound
  | absent location =>
      obtain ⟨parent, entries, name, rfl, hentry, hparent, -⟩ := hfound
      obtain ⟨parent', name', heq, hname⟩ := isName_of_walk
        (fun name hname => Path.isName_of_mem_names hname) (walk_of_lookup hl)
      obtain ⟨-, hlast⟩ := List.append_inj' heq rfl
      obtain rfl : name = name' := by simpa using hlast
      intro n hn
      rcases List.mem_append.mp hn with hn | hn
      · exact ht.names hparent n hn
      · obtain rfl := List.mem_singleton.mp hn
        exact ⟨hname, hentry⟩

theorem isTree_makeDirectories (ht : fs.root.IsTree) (path : String) :
    (fs.makeDirectories path).1.root.IsTree :=
  makeDirectories_induction ht fun _ _ _ ht _ hl => isTree_placeAt ht hl trivial

theorem isTree_write {contents : Bytes} (ht : fs.root.IsTree)
    (h : fs.write path contents = .ok fs') : fs'.root.IsTree := by
  obtain ⟨place, executable, hl, rfl⟩ := write_ok h
  exact isTree_placeAt ht hl trivial

theorem isTree_setExecutable {executable : Bool} (ht : fs.root.IsTree)
    (h : fs.setExecutable path executable = .ok fs') : fs'.root.IsTree := by
  rw [setExecutable_eq] at h
  split at h
  · cases h
  · next hl =>
      cases h
      exact isTree_placeAt ht hl trivial
  · cases h
    exact ht
  · cases h

theorem isTree_copyFile {source : String} (ht : fs.root.IsTree)
    (h : fs.copyFile source path = .ok fs') : fs'.root.IsTree := by
  rw [copyFile_eq] at h
  split at h
  · cases h
  · next contents executable _ =>
      cases hw : fs.write path contents with
      | error e =>
          rw [hw] at h
          cases h
      | ok written =>
          rw [hw] at h
          exact isTree_setExecutable (isTree_write ht hw) h
  · cases h
  · cases h

theorem isTree_makeLink {target : String} (ht : fs.root.IsTree)
    (h : fs.makeLink target path = .ok fs') : fs'.root.IsTree := by
  rw [makeLink_eq] at h
  split at h
  · cases h
  · cases h
  · next hl =>
      cases h
      exact isTree_placeAt ht hl trivial

theorem isTree_readDirectory {entries : Entries} (ht : fs.root.IsTree)
    (h : fs.readDirectory path = .ok entries) : IsUsable path ∧ entries.IsTree := by
  rw [readDirectory_eq] at h
  split at h
  · cases h
  · next hl =>
      cases h
      exact ⟨isUsable_of_lookup hl, ht.get? (found_of_lookup hl)⟩
  · cases h
  · cases h

end

end FileSystem

end BuildMatrix
