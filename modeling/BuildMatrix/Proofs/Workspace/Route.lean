import BuildMatrix.Proofs.FileSystem.Passing
import BuildMatrix.Proofs.Workspace.Stage

/-!
# Look-ups in a copy of the package root

A look-up in a copy comes to the same as in the package root, unless it climbs above the place where
it starts or passes a directory that copies leave out. Which of these it does is read off the
package root alone.
-/

namespace BuildMatrix

open FileSystem

/-- What comes of a look-up in a copy. -/
inductive Route where
  /-- It comes to the same as in the tree that was copied. -/
  | shared
  /-- It leaves the tree upwards. -/
  | climbs
  /-- It passes a directory that is left out of copies. -/
  | prunes
deriving DecidableEq, Repr

namespace Route

/-- What is read in a copy in place of what is read in the tree. -/
def copied : Route → Except FileError Bytes → Except FileError Bytes
  | .prunes, _ => .error .missing
  | _, result => result

/-- How names lead through a tree; `enter` tells how they go on behind a relative link. -/
def ofNames (tree : Node) (enter : Location → String → List String → Route) :
    Location → List String → Route
  | _, [] => .shared
  | location, name :: rest =>
    match tree.kindAt location with
    | some .directory =>
      if name = "." then ofNames tree enter location rest
      else if name = ".." then
        if location.isEmpty then .climbs else ofNames tree enter location.dropLast rest
      else if name.utf8ByteSize > nameLimit then .shared
      else match tree.kindAt (location ++ [name]) with
        | none => .shared
        | some (.link target) => enter location target rest
        | some .directory =>
          if Workspace.isSkipped name then .prunes else ofNames tree enter (location ++ [name]) rest
        | some .file => ofNames tree enter (location ++ [name]) rest
    | _ => .shared

/-- How a walk leads through a tree. Behind an absolute link it is the same wherever it started. -/
def ofWalk (tree : Node) : (links : Nat) → Location → List String → Route
  | 0 => ofNames tree fun _ _ _ => .shared
  | links + 1 => ofNames tree fun location target rest =>
    if target.isEmpty || Path.isAbsolute target then .shared
    else ofWalk tree links location (Path.names target ++ rest)

theorem ofNames_ne_climbs {tree : Node} {enter : Location → String → List String → Route}
    {stays : Location → String → List String → Bool}
    (henter : ∀ location target rest, stays location target rest →
      enter location target rest ≠ .climbs)
    {location : Location} {names : List String} (h : namesStayInside tree stays location names) :
    ofNames tree enter location names ≠ .climbs := by
  induction names generalizing location with
  | nil => simp [ofNames]
  | cons name rest ih =>
    rw [namesStayInside] at h
    rw [ofNames]
    cases hnode : tree.get? location with
    | none => simp [Node.kindAt, hnode]
    | some node =>
      cases node with
      | file contents executable => simp [Node.kindAt, hnode, Node.kind]
      | link target => simp [Node.kindAt, hnode, Node.kind]
      | directory entries =>
        simp only [hnode] at h
        simp only [kindAt_of_get? hnode, Node.kind, kindAt_concat hnode]
        by_cases hdot : name = "."
        · simp only [hdot, if_true] at h ⊢
          exact ih h
        by_cases hdots : name = ".."
        · simp only [hdots, String.reduceEq, if_false, if_true, Bool.and_eq_true,
            Bool.not_eq_true'] at h ⊢
          rw [h.1]
          exact ih h.2
        simp only [hdot, hdots, if_false] at h ⊢
        split
        · simp
        cases hf : entries.find? name with
        | none => simp
        | some child =>
          simp only [hf] at h
          cases child with
          | file contents executable => exact ih h
          | link target => exact henter location target rest h
          | directory inner =>
            simp only [Option.map_some, Node.kind]
            split
            · simp
            · exact ih h

theorem ofWalk_ne_climbs {tree : Node} {links : Nat} {location : Location} {names : List String}
    (h : staysInside tree links location names) : ofWalk tree links location names ≠ .climbs := by
  induction links generalizing location names with
  | zero => exact ofNames_ne_climbs (fun _ _ _ _ => by simp) h
  | succ links ih =>
    refine ofNames_ne_climbs (fun location target rest hs => ?_) h
    simp only [Bool.and_eq_true, Bool.not_eq_true'] at hs
    by_cases ht : target.isEmpty
    · simp [ht]
    · simp only [ht, hs.1, Bool.or_self, Bool.false_eq_true, if_false]
      exact ih hs.2

end Route

namespace Workspace

def prunedNode : Node → Node
  | .directory entries => .directory (pruned entries)
  | node => node

def keptEntry (name : String) : Node → Option Node
  | .directory inner => if isSkipped name then none else some (.directory (pruned inner))
  | node => some node

@[simp] theorem kind_prunedNode (node : Node) : (prunedNode node).kind = node.kind := by
  cases node <;> rfl

theorem contents_prunedNode (slash : Bool) (location location' : Location) (node : Node) :
    Place.contents slash (.present location (prunedNode node)) =
      Place.contents slash (.present location' node) := by
  cases node <;> rfl

theorem find?_pruned (name : String) {entries : Entries} (ht : entries.IsTree) :
    (pruned entries).find? name = (entries.find? name).bind (keptEntry name) := by
  rw [pruned_eq_kept [], find?_kept name ht]
  congr 1
  funext node
  cases node with
  | file contents executable => rfl
  | link target => rfl
  | directory inner => simp [keptNode, keptEntry, pruned_eq_kept [name]]

/-- A location at which, and above which, a copy has what it should have of a tree. -/
def Mirrors (tree copy : Node) (location : Location) : Prop :=
  ∀ above, above <+: location → copy.get? above = (tree.get? above).map prunedNode

section
variable {tree copy : Node} {location : Location} {name : String}

theorem mirrors_nil (entries : Entries) :
    Mirrors (.directory entries) (.directory (pruned entries)) [] := by
  intro above h
  rw [List.prefix_nil.mp h, Node.get?_nil, Node.get?_nil]
  rfl

theorem Mirrors.get?_eq (h : Mirrors tree copy location) :
    copy.get? location = (tree.get? location).map prunedNode :=
  h location List.prefix_rfl

theorem Mirrors.kindAt_eq (h : Mirrors tree copy location) :
    copy.kindAt location = tree.kindAt location := by
  rw [Node.kindAt, Node.kindAt, h.get?_eq]
  simp [Function.comp_def]

theorem Mirrors.dropLast (h : Mirrors tree copy location) : Mirrors tree copy location.dropLast :=
  fun above hp => h above (hp.trans (List.dropLast_prefix location))

theorem Mirrors.get?_concat (h : Mirrors tree copy location) (ht : tree.IsTree)
    (hd : tree.kindAt location = some .directory) (name : String) :
    copy.get? (location ++ [name]) = (tree.get? (location ++ [name])).bind (keptEntry name) := by
  obtain ⟨entries, hentries⟩ := get?_of_kindAt hd
  have hcopy : copy.get? location = some (.directory (pruned entries)) := by
    rw [h.get?_eq, hentries]
    rfl
  rw [Node.get?_concat hcopy, Node.get?_concat hentries, find?_pruned name (ht.get? hentries)]

theorem Mirrors.kindAt_concat (h : Mirrors tree copy location) (ht : tree.IsTree)
    (hd : tree.kindAt location = some .directory) (name : String)
    (hkept : tree.kindAt (location ++ [name]) = some .directory → isSkipped name = false) :
    copy.kindAt (location ++ [name]) = tree.kindAt (location ++ [name]) ∧
      Mirrors tree copy (location ++ [name]) := by
  have hget : copy.get? (location ++ [name]) =
      (tree.get? (location ++ [name])).map prunedNode := by
    rw [h.get?_concat ht hd]
    cases hnode : tree.get? (location ++ [name]) with
    | none => rfl
    | some node =>
      cases node with
      | file contents executable => rfl
      | link target => rfl
      | directory inner =>
        have hs := hkept (by simp [Node.kindAt, hnode, Node.kind])
        simp [keptEntry, hs, prunedNode]
  have hm : Mirrors tree copy (location ++ [name]) := by
    intro above hp
    rcases List.prefix_concat_iff.mp hp with rfl | hp
    · exact hget
    · exact h above hp
  exact ⟨hm.kindAt_eq, hm⟩

/-- Nothing is in the place of a directory that is left out. -/
theorem Mirrors.kindAt_skipped (h : Mirrors tree copy location) (ht : tree.IsTree)
    (hd : tree.kindAt location = some .directory)
    (hchild : tree.kindAt (location ++ [name]) = some .directory) (hs : isSkipped name) :
    copy.kindAt (location ++ [name]) = none := by
  obtain ⟨inner, hinner⟩ := get?_of_kindAt hchild
  rw [Node.kindAt, h.get?_concat ht hd, hinner]
  simp [keptEntry, hs]

end

section
variable {root tree copy : Node} {base home : Location} (slash : Bool)
  (hbase : root.get? base = some tree) (hhome : root.get? home = some copy) (ht : tree.IsTree)
include hbase hhome ht

theorem read_walkNames_copy
    {enter : Location → String → List String → Except FileError Place}
    {routes : Location → String → List String → Route}
    (henter : ∀ location target rest, Mirrors tree copy location →
      routes location target rest ≠ .climbs →
      (enter (home ++ location) target rest).bind (Place.contents slash) =
        (routes location target rest).copied
          ((enter (base ++ location) target rest).bind (Place.contents slash)))
    {location : Location} {names : List String} (hm : Mirrors tree copy location)
    (h : Route.ofNames tree routes location names ≠ .climbs) :
    (walkNames root true enter (home ++ location) names).bind (Place.contents slash) =
      (Route.ofNames tree routes location names).copied
        ((walkNames root true enter (base ++ location) names).bind (Place.contents slash)) := by
  have hbases (l : Location) : root.kindAt (base ++ l) = tree.kindAt l := by
    rw [Node.kindAt, Node.get?_append, hbase, Option.bind_some, Node.kindAt]
  have hhomes (l : Location) : root.kindAt (home ++ l) = copy.kindAt l := by
    rw [Node.kindAt, Node.get?_append, hhome, Option.bind_some, Node.kindAt]
  induction names generalizing location with
  | nil =>
    simp only [walkNames, Node.get?_append, hbase, hhome, Option.bind_some, hm.get?_eq]
    cases tree.get? location with
    | none => rfl
    | some node => exact contents_prunedNode slash _ _ node
  | cons name rest ih =>
    rw [walkNames_cons, walkNames_cons, hbases, hhomes, hm.kindAt_eq]
    rw [Route.ofNames] at h ⊢
    cases hkind : tree.kindAt location with
    | none => rfl
    | some kind =>
      cases kind with
      | file => rfl
      | link target => rfl
      | directory =>
        simp only [hkind] at h ⊢
        by_cases hdot : name = "."
        · simp only [hdot, if_true] at h ⊢
          exact ih hm h
        by_cases hdots : name = ".."
        · simp only [hdots, String.reduceEq, if_false, if_true] at h ⊢
          have hne : location ≠ [] := by
            rintro rfl
            simp at h
          simp only [List.isEmpty_iff, hne, if_false, List.dropLast_append_of_ne_nil hne] at h ⊢
          exact ih hm.dropLast h
        simp only [hdot, hdots, if_false] at h ⊢
        by_cases hsize : name.utf8ByteSize > nameLimit
        · simp only [hsize, if_true]
          rfl
        simp only [hsize, if_false, List.append_assoc, hbases, hhomes] at h ⊢
        cases hchild : tree.kindAt (location ++ [name]) with
        | none =>
          rw [(hm.kindAt_concat ht hkind name (by simp [hchild])).1, hchild]
          cases rest <;> rfl
        | some child =>
          simp only [hchild] at h ⊢
          cases child with
          | file =>
            obtain ⟨hcopy, hnext⟩ := hm.kindAt_concat ht hkind name (by simp [hchild])
            rw [hcopy, hchild]
            exact ih hnext h
          | link target =>
            obtain ⟨hcopy, -⟩ := hm.kindAt_concat ht hkind name (by simp [hchild])
            rw [hcopy, hchild]
            exact henter location target rest hm h
          | directory =>
            by_cases hs : isSkipped name
            -- In the copy the walk ends here, whatever the names behind lead to in the tree.
            · rw [hm.kindAt_skipped ht hkind hchild hs, if_pos hs]
              cases rest <;> rfl
            · simp only [hs, Bool.false_eq_true, if_false] at h ⊢
              obtain ⟨hcopy, hnext⟩ := hm.kindAt_concat ht hkind name fun _ => by simpa using hs
              rw [hcopy, hchild]
              exact ih hnext h

/-- What is read below a copy, in terms of what is read below the tree that was copied. -/
theorem read_walk_copy {links : Nat} {location : Location} {names : List String}
    (hm : Mirrors tree copy location) (h : Route.ofWalk tree links location names ≠ .climbs) :
    (walk root true links (home ++ location) names).bind (Place.contents slash) =
      (Route.ofWalk tree links location names).copied
        ((walk root true links (base ++ location) names).bind (Place.contents slash)) := by
  induction links generalizing location names with
  | zero => exact read_walkNames_copy slash hbase hhome ht (fun _ _ _ _ _ => rfl) hm h
  | succ links ih =>
    refine read_walkNames_copy slash hbase hhome ht (fun location target rest hm hroute => ?_) hm h
    by_cases htarget : target.isEmpty
    · simp only [htarget, if_true, Bool.true_or]
      rfl
    by_cases habs : Path.isAbsolute target
    · simp only [htarget, habs, Bool.false_eq_true, if_false, if_true, Bool.or_true]
      rfl
    · simp only [htarget, habs, Bool.false_eq_true, if_false, Bool.or_self] at hroute ⊢
      exact ih hm hroute

end

end Workspace

end BuildMatrix
