import BuildMatrix.Cache.Archive
import BuildMatrix.Proofs.FileSystem.WellFormed

/-!
# The files of an archive

The archive of a tree has each regular file of the tree once, under the names that lead to it. Trees
with the same files have the same archive.
-/

namespace BuildMatrix

/-- The contents of the regular file at a location, if there is one. -/
def Node.contentsAt (node : Node) (location : Location) : Option Bytes :=
  match node.get? location with
  | some (.file contents _) => some contents
  | _ => none

mutual

def Node.fileCount : Node → Nat
  | .file .. => 1
  | .link _ => 0
  | .directory entries => entries.fileCount

def Entries.fileCount : Entries → Nat
  | .nil => 0
  | .cons _ node rest => node.fileCount + rest.fileCount

end

namespace Node

theorem contentsAt_eq_some {node : Node} {location : Location} {contents : Bytes} :
    node.contentsAt location = some contents ↔
      ∃ executable, node.get? location = some (.file contents executable) := by
  unfold contentsAt
  split
  · next found executable hget => simp [hget]
  · next hnone =>
      constructor
      · rintro ⟨⟩
      · rintro ⟨executable, hget⟩
        exact absurd hget (hnone contents executable)

section
variable {node : Node} {location : Location}
  (hlocation : ∀ name ∈ location, IsName name ∧ FileSystem.IsEntryName name)
include hlocation

theorem IsTree.grow (ht : node.IsTree) : (node.grow location).IsTree := by
  induction location generalizing node with
  | nil => exact ht
  | cons name rest ih =>
      have hrest := fun n hn => hlocation n (List.mem_cons_of_mem name hn)
      obtain ⟨hname, hentry⟩ := hlocation name List.mem_cons_self
      cases node with
      | file contents executable => exact ht
      | link target => exact ht
      | directory entries =>
          rw [Node.grow]
          refine Entries.IsTree.insert hname hentry (ih hrest ?_) ht
          cases hf : entries.find? name with
          | none => exact trivial
          | some child => exact (Entries.IsTree.find? ht hf).2.2

theorem IsTree.put (ht : node.IsTree) (contents : Bytes) : (node.put location contents).IsTree := by
  have habove := fun name hname => hlocation name (List.dropLast_subset location hname)
  exact IsTree.place hlocation (IsTree.grow habove ht) trivial

end

theorem apart_of_contentsAt {node : Node} {a b : Location} {contents contents' : Bytes}
    (ha : node.contentsAt a = some contents) (hb : node.contentsAt b = some contents')
    (hne : a ≠ b) : Apart a b := by
  have hnot {a b : Location} {contents contents' : Bytes}
      (ha : node.contentsAt a = some contents) (hb : node.contentsAt b = some contents')
      (hne : a ≠ b) : ¬a <+: b := by
    rintro ⟨rest, rfl⟩
    obtain ⟨_, hfile⟩ := contentsAt_eq_some.mp ha
    obtain ⟨_, hbelow⟩ := contentsAt_eq_some.mp hb
    rw [get?_append, hfile, Option.bind_some] at hbelow
    cases rest with
    | nil => exact hne (List.append_nil a).symm
    | cons name rest => cases hbelow
  exact ⟨hnot ha hb hne, hnot hb ha hne.symm⟩

theorem distinct_entriesDescendants : ∀ (entries : Entries) (base : Location), entries.IsTree →
    (entriesDescendants base entries).Pairwise fun a b => a.1 ≠ b.1
  | .nil, base, _ => by
      rw [entriesDescendants]
      exact .nil
  | .cons name node rest, base, ht => by
      have hall := ht
      obtain ⟨-, -, hnew, hnode, hrest⟩ := ht
      have hothers := distinct_entriesDescendants rest base hrest
      have hbelow : (descendants (base ++ [name]) node).Pairwise fun a b => a.1 ≠ b.1 := by
        cases node with
        | file contents executable => exact .nil
        | link target => exact .nil
        | directory inner => exact distinct_entriesDescendants inner (base ++ [name]) hnode
      -- Below the entry the locations go on after its name, and the name is that of no other entry.
      have hdeeper {p : Location × Node} (hp : p ∈ descendants (base ++ [name]) node) :
          ∃ more, more ≠ [] ∧ p.1 = base ++ name :: more := by
        cases node with
        | file contents executable => cases hp
        | link target => cases hp
        | directory inner =>
            obtain ⟨more, hne, hloc, -⟩ :=
              (mem_entriesDescendants inner (base ++ [name]) hnode p.1 p.2).mp hp
            exact ⟨more, hne, by rw [hloc, List.append_assoc, List.singleton_append]⟩
      have hother {p : Location × Node} (hp : p ∈ entriesDescendants base rest) :
          ∃ n more, n ≠ name ∧ p.1 = base ++ n :: more := by
        obtain ⟨more, hne, hloc, hget⟩ := (mem_entriesDescendants rest base hrest p.1 p.2).mp hp
        cases more with
        | nil => exact absurd rfl hne
        | cons n more =>
            refine ⟨n, more, ?_, hloc⟩
            rintro rfl
            rw [get?_directory, hnew] at hget
            cases hget
      rw [entriesDescendants]
      refine List.pairwise_cons.mpr ⟨fun p hp heq => ?_, List.pairwise_append.mpr
        ⟨hbelow, hothers, fun p hp q hq heq => ?_⟩⟩
      · rcases List.mem_append.mp hp with hp | hp
        · obtain ⟨more, hne, hloc⟩ := hdeeper hp
          rw [hloc] at heq
          exact hne (by simpa using heq)
        · obtain ⟨n, more, hn, hloc⟩ := hother hp
          rw [hloc] at heq
          exact hn (List.cons.inj (List.append_cancel_left heq)).1.symm
      · obtain ⟨more, -, hloc⟩ := hdeeper hp
        obtain ⟨n, more', hn, hloc'⟩ := hother hq
        rw [hloc, hloc'] at heq
        exact hn (List.cons.inj (List.append_cancel_left heq)).1.symm

end Node

namespace Archive

open Node

def file? (entry : Location × Node) : Option ArchivedFile :=
  match entry.2 with
  | .file contents _ => some ⟨Text.joinWith "/" entry.1, contents⟩
  | _ => none

/-- The archive of the regular files below a node. -/
def ofNode (node : Node) : Archive := ofFiles ((node.descendants []).filterMap file?)

/-- The files of the first entry come before those of the others. -/
theorem filterMap_file?_cons (base : Location) (name : String) (node : Node) (rest : Entries) :
    (entriesDescendants base (.cons name node rest)).filterMap file? =
      ((file? (base ++ [name], node)).toList ++
        (descendants (base ++ [name]) node).filterMap file?) ++
        (entriesDescendants base rest).filterMap file? := by
  rw [entriesDescendants, List.filterMap_cons, List.filterMap_append]
  cases file? (base ++ [name], node) with
  | none => rfl
  | some file => rfl

theorem length_filterMap_file? : ∀ (entries : Entries) (base : Location),
    ((entriesDescendants base entries).filterMap file?).length = entries.fileCount
  | .nil, base => rfl
  | .cons name node rest, base => by
      have hrest := length_filterMap_file? rest base
      have hbelow : ((descendants (base ++ [name]) node).filterMap file?).length +
          (file? (base ++ [name], node)).toList.length = node.fileCount := by
        cases node with
        | file contents executable => rfl
        | link target => rfl
        | directory inner => exact length_filterMap_file? inner (base ++ [name])
      rw [filterMap_file?_cons, List.length_append, List.length_append, hrest, Entries.fileCount,
        ← hbelow]
      omega

theorem file?_eq_some {entry : Location × Node} {file : ArchivedFile} :
    file? entry = some file ↔ (∃ executable, entry.2 = .file file.contents executable) ∧
      file.path = Text.joinWith "/" entry.1 := by
  obtain ⟨location, node⟩ := entry
  obtain ⟨path, contents⟩ := file
  cases node with
  | directory inner => simp [file?]
  | link target => simp [file?]
  | file found executable =>
      simp only [file?, Option.some.injEq, ArchivedFile.mk.injEq, Node.file.injEq]
      constructor
      · rintro ⟨rfl, rfl⟩
        exact ⟨⟨executable, rfl, rfl⟩, rfl⟩
      · rintro ⟨⟨_, rfl, -⟩, rfl⟩
        exact ⟨rfl, rfl⟩

theorem precedes_iff {a b : ArchivedFile} : precedes a b ↔ a.path ≤ b.path := by
  rw [precedes, Bool.not_eq_true', decide_eq_false_iff_not, String.not_lt]

theorem ordered_ofNode (node : Node) :
    (ofNode node).files.Pairwise fun a b => a.path ≤ b.path := by
  have htrans (a b c : ArchivedFile) (hab : precedes a b) (hbc : precedes b c) : precedes a c := by
    rw [precedes_iff] at hab hbc ⊢
    exact String.le_trans hab hbc
  have htotal (a b : ArchivedFile) : precedes a b || precedes b a := by
    rw [Bool.or_eq_true, precedes_iff, precedes_iff]
    exact String.le_total a.path b.path
  exact (List.pairwise_mergeSort htrans htotal _).imp precedes_iff.mp

section
variable {entries : Entries}

theorem length_ofNode (entries : Entries) :
    (ofNode (directory entries)).files.length = entries.fileCount := by
  rw [ofNode, ofFiles, List.length_mergeSort]
  exact length_filterMap_file? entries []

theorem mem_ofNode (ht : entries.IsTree) {file : ArchivedFile} :
    file ∈ (ofNode (directory entries)).files ↔ ∃ location,
      (directory entries).contentsAt location = some file.contents ∧
        file.path = Text.joinWith "/" location := by
  rw [ofNode, ofFiles, List.mem_mergeSort, List.mem_filterMap]
  constructor
  · rintro ⟨⟨location, found⟩, hmem, hfile⟩
    obtain ⟨⟨executable, rfl⟩, hpath⟩ := file?_eq_some.mp hfile
    obtain ⟨rest, -, hrest, hget⟩ := (mem_entriesDescendants entries [] ht _ _).mp hmem
    rw [List.nil_append] at hrest
    rw [← hrest] at hget
    exact ⟨location, contentsAt_eq_some.mpr ⟨executable, hget⟩, hpath⟩
  · rintro ⟨location, hcontents, hpath⟩
    obtain ⟨executable, hget⟩ := contentsAt_eq_some.mp hcontents
    have hne : location ≠ [] := by
      rintro rfl
      cases hget
    exact ⟨(location, .file file.contents executable),
      (mem_entriesDescendants entries [] ht _ _).mpr ⟨location, hne, rfl, hget⟩,
      file?_eq_some.mpr ⟨⟨executable, rfl⟩, hpath⟩⟩

theorem names_of_contentsAt (ht : entries.IsTree) {location : Location} {contents : Bytes}
    (h : (directory entries).contentsAt location = some contents) :
    Path.names (Text.joinWith "/" location) = location := by
  obtain ⟨executable, hget⟩ := contentsAt_eq_some.mp h
  have hall : (directory entries).IsTree := ht
  exact Path.names_joinWith fun name hname => (hall.names hget name hname).1

theorem distinct_ofNode (ht : entries.IsTree) :
    (ofNode (directory entries)).files.Pairwise fun a b => a.path ≠ b.path := by
  refine ((List.mergeSort_perm _ precedes).pairwise_iff Ne.symm).mpr
    (List.pairwise_filterMap.mpr ?_)
  refine (distinct_entriesDescendants entries [] ht).imp_of_mem ?_
  intro a b ha hb hne file hfile other hother heq
  have hcontents {entry : Location × Node} {file : ArchivedFile}
      (hmem : entry ∈ entriesDescendants [] entries) (hfile : file? entry = some file) :
      Path.names file.path = entry.1 := by
    obtain ⟨⟨executable, hentry⟩, hpath⟩ := file?_eq_some.mp hfile
    obtain ⟨rest, -, hrest, hget⟩ := (mem_entriesDescendants entries [] ht _ _).mp hmem
    rw [hentry] at hget
    rw [hpath, hrest]
    exact names_of_contentsAt ht (contentsAt_eq_some.mpr ⟨executable, hget⟩)
  exact hne (by rw [← hcontents ha hfile, ← hcontents hb hother, heq])

/-- Files that are in the order of their paths are in no other order if the paths differ. -/
theorem eq_of_perm {files files' : List ArchivedFile} (h : files.Perm files')
    (hfiles : files.Pairwise fun a b => a.path ≤ b.path)
    (hfiles' : files'.Pairwise fun a b => a.path ≤ b.path)
    (hdistinct : files.Pairwise fun a b => a.path ≠ b.path) : files = files' := by
  refine List.Perm.eq_of_pairwise ?_ hfiles hfiles' h
  intro a b ha hb hab hba
  exact List.Pairwise.forall_of_forall_of_flip (R := fun a b => a.path = b.path → a = b)
    (fun _ _ _ => rfl) (hdistinct.imp fun hne heq => absurd heq hne)
    (hdistinct.imp fun hne heq => absurd heq.symm hne) ha (h.mem_iff.mpr hb)
    (String.le_antisymm hab hba)

/-- Trees with the same files have the same archive. -/
theorem ofNode_eq {entries' : Entries} (ht : entries.IsTree) (ht' : entries'.IsTree)
    (h : ∀ location, (directory entries).contentsAt location =
      (directory entries').contentsAt location) :
    ofNode (directory entries) = ofNode (directory entries') := by
  have hnodup {entries : Entries} (ht : entries.IsTree) :
      (ofNode (directory entries)).files.Nodup :=
    (distinct_ofNode ht).imp fun hne heq => hne (congrArg ArchivedFile.path heq)
  have hperm : (ofNode (directory entries)).files.Perm (ofNode (directory entries')).files := by
    refine (List.perm_ext_iff_of_nodup (hnodup ht) (hnodup ht')).mpr fun file => ?_
    simp only [mem_ofNode ht, mem_ofNode ht', h]
  exact congrArg Archive.mk
    (eq_of_perm hperm (ordered_ofNode _) (ordered_ofNode _) (distinct_ofNode ht))

end

end Archive

end BuildMatrix
