import BuildMatrix.Proofs.Cache.Packing
import BuildMatrix.Proofs.Cache.Payload
import Mathlib.Data.List.Permutation

/-!
# The order of directory entries

A system lists the entries of a directory in an order of its own. Whether a tree is packed, and the
payload, do not depend on it: the files are sorted by their paths, and no two files of a tree have
the same path.
-/

namespace BuildMatrix

mutual

/-- The same tree, with the entries of each directory in any order. -/
inductive Node.Relisted : Node → Node → Prop
  | file (contents : Bytes) (executable : Bool) :
      Node.Relisted (.file contents executable) (.file contents executable)
  | link (target : String) : Node.Relisted (.link target) (.link target)
  | directory {entries entries' : Entries} : Entries.Relisted entries entries' →
      Node.Relisted (.directory entries) (.directory entries')

/-- The same entries in any order, and so at each level of the trees below them. -/
inductive Entries.Relisted : Entries → Entries → Prop
  | nil : Entries.Relisted .nil .nil
  | cons (name : String) {node node' : Node} {rest rest' : Entries} :
      Node.Relisted node node' → Entries.Relisted rest rest' →
      Entries.Relisted (.cons name node rest) (.cons name node' rest')
  | swap (name name' : String) (node node' : Node) (rest : Entries) :
      Entries.Relisted (.cons name node (.cons name' node' rest))
        (.cons name' node' (.cons name node rest))
  | trans {entries entries' entries'' : Entries} : Entries.Relisted entries entries' →
      Entries.Relisted entries' entries'' → Entries.Relisted entries entries''

end

mutual

theorem Node.Relisted.refl (node : Node) : node.Relisted node := by
  cases node with
  | file contents executable => exact .file contents executable
  | link target => exact .link target
  | directory entries => exact .directory (Entries.Relisted.refl entries)

theorem Entries.Relisted.refl (entries : Entries) : entries.Relisted entries := by
  cases entries with
  | nil => exact .nil
  | cons name node rest =>
    exact .cons name (Node.Relisted.refl node) (Entries.Relisted.refl rest)

end

theorem Node.Relisted.trans {a b c : Node} (h : a.Relisted b) (h' : b.Relisted c) :
    a.Relisted c := by
  cases h with
  | file contents executable => exact h'
  | link target => exact h'
  | directory h =>
      cases h' with
      | directory h' => exact .directory (h.trans h')

mutual

theorem Node.Relisted.symm {node node' : Node} : node.Relisted node' → node'.Relisted node
  | .file contents executable => .file contents executable
  | .link target => .link target
  | .directory h => .directory (Entries.Relisted.symm h)

theorem Entries.Relisted.symm {entries entries' : Entries} :
    entries.Relisted entries' → entries'.Relisted entries
  | .nil => .nil
  | .cons name hnode hrest =>
    .cons name (Node.Relisted.symm hnode) (Entries.Relisted.symm hrest)
  | .swap name name' node node' rest => .swap name' name node' node rest
  | .trans h h' => .trans (Entries.Relisted.symm h') (Entries.Relisted.symm h)

end

theorem eq_none_of_rel {a : Option Node} (h : Option.Rel Node.Relisted none a) : a = none := by
  cases h
  rfl

theorem rel_trans {a b c : Option Node} (h : Option.Rel Node.Relisted a b)
    (h' : Option.Rel Node.Relisted b c) : Option.Rel Node.Relisted a c := by
  cases h with
  | none => exact h'
  | some h =>
      cases h' with
      | some h' => exact .some (h.trans h')

mutual

theorem Node.Relisted.isTree {node node' : Node} : node.Relisted node' → node.IsTree →
    node'.IsTree
  | .file _ _, ht => ht
  | .link _, ht => ht
  | .directory h, ht => (Entries.Relisted.isTree h ht).1

/-- In another order the same names stand for the same nodes, with their entries in another order. -/
theorem Entries.Relisted.isTree {entries entries' : Entries} : entries.Relisted entries' →
    entries.IsTree → entries'.IsTree ∧
      ∀ name, Option.Rel Node.Relisted (entries.find? name) (entries'.find? name)
  | .nil, ht => ⟨ht, fun _ => .none⟩
  | .cons name hnode hrest, ⟨hn, hname, hnew, hfirst, hothers⟩ => by
      obtain ⟨hothers', hfind⟩ := Entries.Relisted.isTree hrest hothers
      have hnew' := eq_none_of_rel (hnew ▸ hfind name)
      refine ⟨⟨hn, hname, hnew', Node.Relisted.isTree hnode hfirst, hothers'⟩, fun other => ?_⟩
      rw [Entries.find?_cons, Entries.find?_cons]
      split
      · exact .some hnode
      · exact hfind other
  | .swap name name' node node' rest,
      ⟨hn, hname, hnew, hnode, hn', hname', hnew', hnode', hrest⟩ => by
      rw [Entries.find?_cons] at hnew
      split at hnew
      · cases hnew
      · next hne =>
          refine ⟨⟨hn', hname', ?_, hnode', hn, hname, hnew, hnode, hrest⟩, fun other => ?_⟩
          · rw [Entries.find?_cons, if_neg (Ne.symm hne), hnew']
          · have hsame : (Entries.cons name' node' (.cons name node rest)).find? other =
                (Entries.cons name node (.cons name' node' rest)).find? other := by
              simp only [Entries.find?_cons]
              split <;> split <;> simp_all
            rw [hsame]
            cases (Entries.cons name node (.cons name' node' rest)).find? other with
            | none => exact .none
            | some found => exact .some (Node.Relisted.refl found)
  | .trans h h', ht => by
      obtain ⟨ht', hfind⟩ := Entries.Relisted.isTree h ht
      obtain ⟨ht'', hfind'⟩ := Entries.Relisted.isTree h' ht'
      exact ⟨ht'', fun name => rel_trans (hfind name) (hfind' name)⟩

end

theorem Node.Relisted.get? {node node' : Node} (h : node.Relisted node') (ht : node.IsTree)
    (location : Location) :
    Option.Rel Node.Relisted (node.get? location) (node'.get? location) := by
  induction location generalizing node node' with
  | nil => exact .some h
  | cons name rest ih =>
      cases h with
      | file contents executable => exact .none
      | link target => exact .none
      | @directory entries entries' h =>
          have hrel := (Entries.Relisted.isTree h ht).2 name
          rw [Node.get?_directory, Node.get?_directory]
          cases hfind : entries.find? name with
          | none =>
              rw [hfind] at hrel
              rw [eq_none_of_rel hrel]
              exact .none
          | some child =>
              rw [hfind] at hrel
              generalize entries'.find? name = found at hrel
              cases hrel with
              | some hchild => exact ih hchild (Entries.IsTree.find? ht hfind).2.2

theorem Node.Openable.relisted {node node' : Node} {path : String} (hopen : node.Openable path)
    (h : node.Relisted node') (ht : node.IsTree) : node'.Openable path := by
  intro location found' hget hlink
  have hrel := h.get? ht location
  rw [hget] at hrel
  generalize hfound : node.get? location = found at hrel
  cases hrel with
  | @some found _ hrel =>
      refine hopen location found hfound ?_
      rintro target rfl
      cases hrel
      exact hlink target rfl

namespace Archive

open Node

mutual

theorem files_perm_of_node {node node' : Node} (base : Location) : node.Relisted node' →
    ((descendants base node).filterMap file?).Perm ((descendants base node').filterMap file?) ∧
      file? (base, node) = file? (base, node')
  | .file contents executable => ⟨.refl _, rfl⟩
  | .link target => ⟨.refl _, rfl⟩
  | .directory h => ⟨files_perm_of_entries base h, rfl⟩

theorem files_perm_of_entries {entries entries' : Entries} (base : Location) :
    entries.Relisted entries' → ((entriesDescendants base entries).filterMap file?).Perm
      ((entriesDescendants base entries').filterMap file?)
  | .nil => .refl _
  | .cons name hnode hrest => by
    obtain ⟨hbelow, hhere⟩ := files_perm_of_node (base ++ [name]) hnode
    rw [filterMap_file?_cons, filterMap_file?_cons, hhere]
    exact (hbelow.append_left _).append (files_perm_of_entries base hrest)
  | .swap name name' node node' rest => by
    rw [filterMap_file?_cons, filterMap_file?_cons, filterMap_file?_cons, filterMap_file?_cons]
    exact List.perm_append_comm_assoc _ _ _
  | .trans h h' => (files_perm_of_entries base h).trans (files_perm_of_entries base h')

end

/-- The sorted files are the same, since no two files have the same path. -/
theorem ofNode_of_relisted {tree entries : Entries} (ht : tree.IsTree) (h : tree.Relisted entries) :
    ofNode (directory entries) = ofNode (directory tree) := by
  have hperm : (ofNode (directory tree)).files.Perm (ofNode (directory entries)).files :=
    ((List.mergeSort_perm _ precedes).trans (files_perm_of_entries [] h)).trans
      (List.mergeSort_perm _ precedes).symm
  exact congrArg Archive.mk
    (eq_of_perm hperm (ordered_ofNode _) (ordered_ofNode _) (distinct_ofNode ht)).symm

/-- The files of an archive are the regular files of a tree, in the order of their paths. -/
structure Lists (archive : Archive) (tree : Entries) : Prop where
  increasing : archive.files.Pairwise fun a b => a.path < b.path
  distinct : (archive.files.map (·.path)).Nodup
  mem_iff : ∀ file, file ∈ archive.files ↔ ∃ location,
    (directory tree).contentsAt location = some file.contents ∧
      file.path = Text.joinWith "/" location
  /-- The names that are joined to a path can be told from it. -/
  apart : ∀ {a b : Location} {contents contents' : Bytes},
    (directory tree).contentsAt a = some contents →
    (directory tree).contentsAt b = some contents' →
    Text.joinWith "/" a = Text.joinWith "/" b → a = b

theorem lists_ofNode {tree : Entries} (ht : tree.IsTree) : (ofNode (directory tree)).Lists tree := by
  have hdistinct := distinct_ofNode ht
  constructor
  case increasing =>
    refine ((ordered_ofNode (directory tree)).and hdistinct).imp fun h => ?_
    rw [← String.not_le]
    intro hle
    exact h.2 (String.le_antisymm h.1 hle)
  case distinct => exact List.pairwise_map.mpr hdistinct
  case mem_iff => exact fun file => mem_ofNode ht
  case apart =>
    intro a b contents contents' ha hb heq
    rw [← names_of_contentsAt ht ha, ← names_of_contentsAt ht hb, heq]

/--
In whatever orders two systems list the entries of the directories of a tree, they pack the same
payload if the paths of the directories and the files can be used. Its paths increase, so they
differ, and are those of the regular files of the tree. If a path cannot be used, the tree is packed
in no order.
-/
theorem pack_of_relisted {tree entries entries' : Entries} (ht : tree.IsTree)
    (h : tree.Relisted entries) (h' : tree.Relisted entries') {files files' : FileSystem}
    {path path' : String} (hnode : files.node? path = some (.directory entries))
    (hnode' : files'.node? path' = some (.directory entries')) :
    ((directory tree).Openable path → (directory tree).Openable path' →
      ∃ payload archive, pack files path = .ok payload ∧ pack files' path' = .ok payload ∧
        decode? payload = some archive ∧ archive.Lists tree) ∧
    (¬(directory tree).Openable path →
      ∃ below cause, pack files path = .error (.unreadable below cause) ∧
        ¬FileSystem.IsUsable below) := by
  have hpacked {entries : Entries} (h : tree.Relisted entries) {files : FileSystem} {path : String}
      (hnode : files.node? path = some (.directory entries)) :
      Collects ((directory tree).Openable path) (ofNode (directory tree)).encode
        (pack files path) := by
    have ht' := (h.isTree ht).1
    have hopen : (directory entries).Openable path ↔ (directory tree).Openable path :=
      ⟨fun ho => ho.relisted (.directory h.symm) ht', fun ho => ho.relisted (.directory h) ht⟩
    rw [← ofNode_of_relisted ht h]
    exact (collects_pack hnode ht').congr hopen
  constructor
  · intro hopen hopen'
    exact ⟨_, ofNode (directory tree), (hpacked h hnode).collected hopen,
      (hpacked h' hnode').collected hopen', decode?_encode _, lists_ofNode ht⟩
  · exact (hpacked h hnode).failed

/-- Names that sort on both sides of the separator of paths. -/
def crowdedTree : Entries :=
  .cons "a" (.directory (.cons "x" (.file [0x31] false) (.cons "b" (.file [0x32] false) .nil))) <|
    .cons "a.b" (.file [0x33] false) <| .cons "a-" (.file [0x34] true) <|
      .cons "l" (.link "a") .nil

/-- The same tree, with two entries exchanged in the directory and in the one below it. -/
def crowdedTreeAgain : Entries :=
  .cons "a.b" (.file [0x33] false) <|
    .cons "a" (.directory (.cons "b" (.file [0x32] false) (.cons "x" (.file [0x31] false) .nil))) <|
      .cons "a-" (.file [0x34] true) <| .cons "l" (.link "a") .nil

theorem relisted_crowdedTree : crowdedTree.Relisted crowdedTreeAgain :=
  .trans (.cons "a" (.directory (.swap "x" "b" _ _ .nil)) (Entries.Relisted.refl _))
    (.swap "a" "a.b" _ _ _)

def crowdedHost (tree : Entries) : FileSystem :=
  ⟨.directory (.cons "c" (.directory tree) .nil), []⟩

theorem openable_crowdedTree : (directory crowdedTree).Openable "/c" :=
  openable_of_descendants (by decide +kernel) (by decide) (by decide +kernel)

/-- The files of the directory `a` come last, although its name comes first. -/
theorem pack_of_relisted_crowded :
    crowdedTree.IsTree ∧ ∃ payload archive,
      pack (crowdedHost crowdedTree) "/c" = .ok payload ∧
      pack (crowdedHost crowdedTreeAgain) "/c" = .ok payload ∧
      decode? payload = some archive ∧ archive.Lists crowdedTree ∧
      archive.files.map (·.path) = ["a-", "a.b", "a/b", "a/x"] := by
  have htree : crowdedTree.IsTree := by decide +kernel
  have hnode (tree : Entries) : (crowdedHost tree).node? "/c" = some (.directory tree) := rfl
  obtain ⟨payload, archive, hpacked, hpacked', hdecoded, hlists⟩ :=
    (pack_of_relisted htree (Entries.Relisted.refl crowdedTree) relisted_crowdedTree
      (hnode crowdedTree) (hnode crowdedTreeAgain)).1 openable_crowdedTree openable_crowdedTree
  refine ⟨htree, payload, archive, hpacked, hpacked', hdecoded, hlists, ?_⟩
  have hsame := (collects_pack (hnode crowdedTree) htree).collected openable_crowdedTree
  rw [hpacked, Except.ok.injEq] at hsame
  rw [hsame, decode?_encode, Option.some.injEq] at hdecoded
  rw [← hdecoded]
  cbv

/-- A tree whose paths become too long is not packed, in whatever order its entries are listed. -/
theorem pack_of_relisted_limits :
    deepHost.node? "/a" = some (.directory (deepTree 18)) ∧ (deepTree 18).IsTree ∧
      ∀ payload, pack deepHost "/a" ≠ .ok payload :=
  ⟨rfl, isTree_deepTree 18, pack_deepHost⟩

end Archive

end BuildMatrix
