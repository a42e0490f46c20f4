import BuildMatrix.Proofs.FileSystem.Operations

/-!
# What a look-up passes

A look-up asks for the kinds of a few locations and for nothing else. Changes that spare these
locations, and what is below the last of them, do not change what is read. Neither do further links
that the look-up might have followed.
-/

namespace BuildMatrix

/-- What is read at a place. A slash at the end of its path stands for a directory. -/
def Place.contents (slash : Bool) : Place → Except FileError Bytes
  | .present _ (.directory _) => .error .isDirectory
  | .present _ (.file contents _) => if slash then .error .notDirectory else .ok contents
  | .present _ (.link _) => if slash then .error .notDirectory else .error .isDirectory
  | .absent _ => .error .missing

/-- Where a place is, and what kind of node is there. -/
def Place.outline : Place → Location × Option Node.Kind
  | .present location node => (location, some node.kind)
  | .absent location => (location, none)

namespace FileSystem

open Node (kindAt)

section
variable {root : Node} {location : Location} {name : String} {rest : List String}
  {enter : Location → String → List String → Except FileError Place}

theorem kindAt_concat {entries : Entries} (h : root.get? location = some (.directory entries))
    (name : String) : root.kindAt (location ++ [name]) = (entries.find? name).map Node.kind := by
  rw [kindAt, Node.get?_concat h]

theorem walkNames_cons (root : Node)
    (enter : Location → String → List String → Except FileError Place) (location : Location)
    (name : String) (rest : List String) :
    walkNames root true enter location (name :: rest) =
      match root.kindAt location with
      | some .directory =>
        if name = "." then walkNames root true enter location rest
        else if name = ".." then walkNames root true enter location.dropLast rest
        else if name.utf8ByteSize > nameLimit then .error .nameTooLong
        else match root.kindAt (location ++ [name]) with
          | none => if rest.isEmpty then .ok (.absent (location ++ [name])) else .error .missing
          | some (.link target) => enter location target rest
          | some _ => walkNames root true enter (location ++ [name]) rest
      | some _ => .error .notDirectory
      | none => .error .missing := by
  rw [walkNames]
  cases hnode : root.get? location with
  | none => simp [kindAt, hnode]
  | some node =>
    cases node with
    | file contents executable => simp [kindAt, hnode, Node.kind]
    | link target => simp [kindAt, hnode, Node.kind]
    | directory entries =>
      simp only [kindAt_concat hnode, kindAt_of_get? hnode, Node.kind]
      cases hf : entries.find? name with
      | none => rfl
      | some child => cases child <;> simp [Node.kind]

theorem outline_walkNames_nil (root : Node)
    (enter : Location → String → List String → Except FileError Place) (location : Location) :
    (walkNames root true enter location []).map Place.outline =
      match root.kindAt location with
      | some kind => .ok (location, some kind)
      | none => .error .missing := by
  rw [walkNames]
  cases hnode : root.get? location with
  | none => simp [kindAt, hnode, Except.map]
  | some node => simp [kindAt, hnode, Except.map, Place.outline]

end

/-- The locations that following names asks for; `enter` tells those behind a link. -/
def namesPassed (root : Node) (enter : Location → String → List String → List Location) :
    Location → List String → List Location
  | location, [] => [location]
  | location, name :: rest =>
    location :: match root.kindAt location with
      | some .directory =>
        if name = "." then namesPassed root enter location rest
        else if name = ".." then namesPassed root enter location.dropLast rest
        else match root.kindAt (location ++ [name]) with
          | none => [location ++ [name]]
          | some (.link target) => (location ++ [name]) :: enter location target rest
          | some _ => namesPassed root enter (location ++ [name]) rest
      | _ => []

theorem mem_namesPassed (root : Node) (enter : Location → String → List String → List Location)
    (location : Location) (names : List String) :
    location ∈ namesPassed root enter location names := by
  cases names <;> simp [namesPassed]

def passed (root : Node) : (links : Nat) → Location → List String → List Location
  | 0 => namesPassed root fun _ _ _ => []
  | links + 1 => namesPassed root fun location target rest =>
    if target.isEmpty then []
    else passed root links (if Path.isAbsolute target then [] else location)
      (Path.names target ++ rest)

section
variable {root tree : Node} {base : Location} (hbase : root.get? base = some tree)
include hbase

theorem namesPassed_inside {passes : Location → String → List String → List Location}
    {stays : Location → String → List String → Bool}
    (henter : ∀ location target rest, stays location target rest →
      ∀ l ∈ passes (base ++ location) target rest, base <+: l)
    {location : Location} {names : List String} (h : namesStayInside tree stays location names) :
    ∀ l ∈ namesPassed root passes (base ++ location) names, base <+: l := by
  have hkinds (l : Location) : root.kindAt (base ++ l) = tree.kindAt l := by
    rw [kindAt, Node.get?_append, hbase, Option.bind_some, kindAt]
  induction names generalizing location with
  | nil =>
    rw [namesPassed, List.forall_mem_singleton]
    exact List.prefix_append base location
  | cons name rest ih =>
    rw [namesPassed, List.forall_mem_cons, hkinds]
    refine ⟨List.prefix_append base location, ?_⟩
    rw [namesStayInside] at h
    cases hnode : tree.get? location with
    | none => simp [kindAt, hnode]
    | some node =>
      cases node with
      | file contents executable => simp [kindAt, hnode, Node.kind]
      | link target => simp [kindAt, hnode, Node.kind]
      | directory entries =>
        simp only [hnode] at h
        simp only [kindAt_of_get? hnode, Node.kind]
        by_cases hdot : name = "."
        · simp only [hdot, if_true] at h ⊢
          exact ih h
        by_cases hdots : name = ".."
        · simp only [hdots, String.reduceEq, if_false, if_true, Bool.and_eq_true] at h ⊢
          have hne : location ≠ [] := by
            rintro rfl
            simp at h
          rw [List.dropLast_append_of_ne_nil hne]
          exact ih h.2
        simp only [hdot, hdots, if_false, List.append_assoc, hkinds, kindAt_concat hnode] at h ⊢
        have hchild : base <+: base ++ (location ++ [name]) := List.prefix_append _ _
        cases hf : entries.find? name with
        | none => simp
        | some child =>
          simp only [hf] at h
          cases child with
          | file contents executable => exact ih h
          | directory inner => exact ih h
          | link target => exact List.forall_mem_cons.mpr ⟨hchild, henter location target rest h⟩

/-- A walk that stays inside of a tree asks for nothing outside of it. -/
theorem passed_inside {links : Nat} {location : Location} {names : List String}
    (h : staysInside tree links location names) :
    ∀ l ∈ passed root links (base ++ location) names, base <+: l := by
  induction links generalizing location names with
  | zero => exact namesPassed_inside hbase (fun _ _ _ _ => by simp) h
  | succ links ih =>
    refine namesPassed_inside hbase (fun location target rest hs => ?_) h
    simp only [Bool.and_eq_true, Bool.not_eq_true'] at hs
    by_cases ht : target.isEmpty
    · simp [ht]
    · simp only [ht, Bool.false_eq_true, if_false, hs.1]
      exact ih hs.2

end

section
variable {root root' : Node} {region : Location → Prop}
  (hsame : ∀ l, ¬region l → root'.kindAt l = root.kindAt l)
include hsame

theorem walkNames_frame {enter enter' : Location → String → List String → Except FileError Place}
    {passes : Location → String → List String → List Location}
    (henter : ∀ location target rest, (∀ l ∈ passes location target rest, ¬region l) →
      (enter' location target rest).map Place.outline =
        (enter location target rest).map Place.outline)
    {location : Location} {names : List String}
    (h : ∀ l ∈ namesPassed root passes location names, ¬region l) :
    (walkNames root' true enter' location names).map Place.outline =
      (walkNames root true enter location names).map Place.outline := by
  induction names generalizing location with
  | nil =>
    have hhere : ¬region location := h location (mem_namesPassed _ _ _ _)
    rw [outline_walkNames_nil, outline_walkNames_nil, hsame _ hhere]
  | cons name rest ih =>
    have hhere : ¬region location := h location (mem_namesPassed _ _ _ _)
    rw [namesPassed] at h
    replace h := fun l hl => h l (List.mem_cons_of_mem location hl)
    rw [walkNames_cons, walkNames_cons, hsame _ hhere]
    cases hkind : root.kindAt location with
    | none => rfl
    | some kind =>
      cases kind with
      | file => rfl
      | link target => rfl
      | directory =>
        simp only [hkind] at h ⊢
        by_cases hdot : name = "."
        · simp only [hdot, if_true] at h ⊢
          exact ih h
        by_cases hdots : name = ".."
        · simp only [hdots, String.reduceEq, if_false, if_true] at h ⊢
          exact ih h
        simp only [hdot, hdots, if_false] at h ⊢
        by_cases hsize : name.utf8ByteSize > nameLimit
        · simp only [hsize, if_true]
        simp only [hsize, if_false]
        cases hchild : root.kindAt (location ++ [name]) with
        | none =>
          simp only [hchild, List.mem_singleton, forall_eq] at h
          rw [hsame _ h, hchild]
        | some child =>
          cases child with
          | file =>
            simp only [hchild] at h
            have hnext : ¬region (location ++ [name]) := h _ (mem_namesPassed _ _ _ _)
            rw [hsame _ hnext, hchild]
            exact ih h
          | directory =>
            simp only [hchild] at h
            have hnext : ¬region (location ++ [name]) := h _ (mem_namesPassed _ _ _ _)
            rw [hsame _ hnext, hchild]
            exact ih h
          | link target =>
            simp only [hchild, List.mem_cons, forall_eq_or_imp] at h
            rw [hsame _ h.1, hchild]
            exact henter location target rest h.2

/-- A walk ends at the same place, and at the same kind of node, if what it asks for is spared. -/
theorem walk_frame {links : Nat} {location : Location} {names : List String}
    (h : ∀ l ∈ passed root links location names, ¬region l) :
    (walk root' true links location names).map Place.outline =
      (walk root true links location names).map Place.outline := by
  induction links generalizing location names with
  | zero => exact walkNames_frame hsame (fun _ _ _ _ => rfl) h
  | succ links ih =>
    refine walkNames_frame hsame (fun location target rest hpasses => ?_) h
    by_cases ht : target.isEmpty
    · simp only [ht, if_true]
    · simp only [ht, Bool.false_eq_true, if_false] at hpasses ⊢
      exact ih hpasses

end

/-- A walk spares a region: it asks for nothing there, and nothing of the region is below its
end. -/
structure Spares (region : Location → Prop) (root : Node) (links : Nat) (location : Location)
    (names : List String) : Prop where
  passes : ∀ l ∈ passed root links location names, ¬region l
  ends : ∀ place, walk root true links location names = .ok place →
    ∀ rest, ¬region (place.location ++ rest)

/-- What is read at the end of a walk stays the same after changes in a region that it spares. -/
theorem Spares.contents_eq {region : Location → Prop} {fs fs' : FileSystem} {links : Nat}
    {location : Location} {names : List String}
    (h : Spares region fs.root links location names) (hc : Confined region fs fs') (slash : Bool) :
    (walk fs'.root true links location names).bind (Place.contents slash) =
      (walk fs.root true links location names).bind (Place.contents slash) := by
  have hwalk := walk_frame hc.kindAt_eq h.passes
  cases hold : walk fs.root true links location names with
  | error e =>
    rw [hold] at hwalk
    cases hnew : walk fs'.root true links location names with
    | error e' =>
      rw [hnew] at hwalk
      cases hwalk
      rfl
    | ok place =>
      rw [hnew] at hwalk
      cases hwalk
  | ok place =>
    rw [hold] at hwalk
    have hsame := hc.get?_eq _ (h.ends place hold)
    have hfound := walk_found hold
    cases hnew : walk fs'.root true links location names with
    | error e =>
      rw [hnew] at hwalk
      cases hwalk
    | ok place' =>
      rw [hnew] at hwalk
      have hfound' := walk_found hnew
      have houtline : place'.outline = place.outline := Except.ok.inj hwalk
      cases place with
      | present l node =>
        cases place' with
        | present l' node' =>
          obtain ⟨hl, -⟩ := Prod.mk.inj houtline
          subst hl
          have hnodes : some node' = some node := hfound'.symm.trans (hsame.trans hfound)
          rw [Option.some.inj hnodes]
        | absent l' => cases houtline
      | absent l =>
        cases place' with
        | present l' node' => cases houtline
        | absent l' => rfl

section
variable {root : Node} {follow : Bool}

theorem walkNames_congr {enter enter' : Location → String → List String → Except FileError Place}
    (henter : ∀ location target rest, enter location target rest ≠ .error .tooManyLinks →
      enter' location target rest = enter location target rest)
    {location : Location} {names : List String}
    (h : walkNames root follow enter location names ≠ .error .tooManyLinks) :
    walkNames root follow enter' location names = walkNames root follow enter location names := by
  induction names generalizing location with
  | nil => rfl
  | cons name rest ih =>
    simp only [walkNames] at h ⊢
    cases hnode : root.get? location with
    | none => rfl
    | some node =>
      cases node with
      | file contents executable => rfl
      | link target => rfl
      | directory entries =>
        simp only [hnode] at h ⊢
        by_cases hdot : name = "."
        · simp only [hdot, if_true] at h ⊢
          exact ih h
        by_cases hdots : name = ".."
        · simp only [hdots, String.reduceEq, if_false, if_true] at h ⊢
          exact ih h
        simp only [hdot, hdots, if_false] at h ⊢
        by_cases hsize : name.utf8ByteSize > nameLimit
        · simp only [hsize, if_true]
        simp only [hsize, if_false] at h ⊢
        cases hf : entries.find? name with
        | none => rfl
        | some child =>
          cases child with
          | file contents executable =>
            simp only [hf] at h ⊢
            exact ih h
          | directory inner =>
            simp only [hf] at h ⊢
            exact ih h
          | link target =>
            simp only [hf] at h ⊢
            by_cases hlast : (rest.isEmpty && !follow) = true
            · simp only [hlast, if_true]
            · simp only [hlast] at h ⊢
              exact henter location target rest h

theorem walk_more_links {links more : Nat} (hle : links ≤ more) {location : Location}
    {names : List String}
    (h : walk root follow links location names ≠ .error .tooManyLinks) :
    walk root follow more location names = walk root follow links location names := by
  induction links generalizing more location names with
  | zero =>
    cases more with
    | zero => rfl
    | succ more => exact walkNames_congr (fun _ _ _ hne => absurd rfl hne) h
  | succ links ih =>
    obtain ⟨more, rfl⟩ : ∃ n, more = n + 1 := ⟨more - 1, by omega⟩
    refine walkNames_congr (fun location target rest hne => ?_) h
    by_cases ht : target.isEmpty
    · simp only [ht, if_true]
    · simp only [ht, Bool.false_eq_true, if_false] at hne ⊢
      exact ih (by omega) hne

end

theorem Leads.links_le {avoid : Location → Prop} {root : Node} {links links' : Nat}
    {location location' : Location} {names : List String}
    (h : Leads avoid root links location names links' location') : links' ≤ links := by
  induction h with
  | done => exact Nat.le_refl _
  | here _ _ ih => exact ih
  | up _ _ ih => exact ih
  | down _ _ _ _ _ ih => exact ih
  | through _ _ _ _ _ ih => exact Nat.le_succ_of_le ih

section
variable {fs : FileSystem} {path : String}

theorem read_eq (h : IsUsable path) :
    fs.read path = (walk fs.root true linkLimit (fs.startOf path) (Path.names path)).bind
      (Place.contents (Path.endsInSlash path)) := by
  rw [read, lookup_of_isUsable h, Bool.true_or]
  cases walk fs.root true linkLimit (fs.startOf path) (Path.names path) with
  | error e => rfl
  | ok place =>
    cases place with
    | absent l => rfl
    | present l node =>
      cases node with
      | directory entries => rfl
      | file contents executable =>
        cases Path.endsInSlash path with
        | true => rfl
        | false => rfl
      | link target =>
        cases Path.endsInSlash path with
        | true => rfl
        | false => rfl

theorem read_of_nul (h : Char.ofNat 0 ∈ path.toList) (fs : FileSystem) :
    fs.read path = .error .nulInName := by
  rw [read, lookup, if_pos (by simpa using h)]
  rfl

theorem isFile_iff_read (fs : FileSystem) (path : String) :
    fs.isFile path ↔ ∃ contents, fs.read path = .ok contents := by
  unfold isFile node? read
  cases fs.lookup true path with
  | error e => simp [bind, Except.bind]
  | ok place =>
    cases place with
    | absent l => simp [bind, Except.bind, throw, throwThe, MonadExceptOf.throw]
    | present l node =>
      cases node with
      | directory entries => simp [bind, Except.bind, throw, throwThe, MonadExceptOf.throw]
      | link target => simp [bind, Except.bind, throw, throwThe, MonadExceptOf.throw]
      | file contents executable => simp [bind, Except.bind, pure, Except.pure]

end

end FileSystem

end BuildMatrix
