import BuildMatrix.Proofs.FileSystem.Walk

/-!
# Files put into trees

Directories that are missing above a file are made, and the file is put there. This is seen at the
file and at the directories above it only. Files that are not above one another can be put into a
tree in any order.
-/

namespace BuildMatrix

namespace Node

/-- Makes the missing directories along a location. -/
def grow : Location → Node → Node
  | [], node => node
  | name :: rest, directory entries =>
    directory (entries.insert name (grow rest ((entries.find? name).getD (directory .nil))))
  | _ :: _, node => node

def executableAt (node : Node) (location : Location) : Bool :=
  match node.get? location with
  | some (file _ executable) => executable
  | _ => false

/-- Puts a file at a location, with the directories that it needs. -/
def put (node : Node) (location : Location) (contents : Bytes) : Node :=
  (node.grow location.dropLast).place location (file contents (node.executableAt location))

/-- Nothing but directories stands at a location and above it. -/
def Open (node : Node) (location : Location) : Prop :=
  ∀ above, above <+: location → ∀ kind, node.kindAt above = some kind → kind = .directory

/-- A file can be put at a location: nothing but directories stands above it, and nothing but a
file at it. -/
structure Admits (node : Node) (location : Location) : Prop where
  ne_nil : location ≠ []
  above : node.Open location.dropLast
  self : ∀ kind, node.kindAt location = some kind → kind = .file

theorem kindAt_nil (node : Node) : node.kindAt [] = some node.kind := by
  simp [kindAt]

theorem kindAt_cons (entries : Entries) (name : String) (rest : Location) :
    (directory entries).kindAt (name :: rest) =
      (entries.find? name).bind fun child => child.kindAt rest := by
  rw [kindAt, get?_directory, Option.map_bind]
  rfl

theorem kindAt_nil_directory (location : Location) (h : location ≠ []) :
    (directory .nil).kindAt location = none := by
  cases location with
  | nil => exact absurd rfl h
  | cons name rest => rw [kindAt_cons, Entries.find?_nil, Option.bind_none]

theorem get?_nil_directory (location : Location) (h : location ≠ []) :
    (directory .nil).get? location = none := by
  cases location with
  | nil => exact absurd rfl h
  | cons name rest => rw [get?_directory, Entries.find?_nil, Option.bind_none]

theorem Open.of_prefix {node : Node} {a b : Location} (h : node.Open b) (hp : a <+: b) :
    node.Open a :=
  fun above habove => h above (habove.trans hp)

theorem open_of_directory {node : Node} {location : Location} {entries : Entries}
    (h : node.get? location = some (directory entries)) : node.Open location := by
  rintro above ⟨rest, rfl⟩ kind hkind
  obtain ⟨found, hfound, rfl⟩ := Option.map_eq_some_iff.mp hkind
  rw [get?_append, hfound, Option.bind_some] at h
  cases found with
  | directory inner => rfl
  | file contents executable => cases rest <;> cases h
  | link target => cases rest <;> cases h

/-- Nothing stands in the way where the first name is missing. -/
theorem Open.append_missing {node : Node} {base : Location} {name : String} (h : node.Open base)
    (hmissing : node.kindAt (base ++ [name]) = none) (more : Location) :
    node.Open (base ++ name :: more) := by
  intro above hp kind hkind
  rw [← List.singleton_append, ← List.append_assoc] at hp
  rcases List.prefix_or_prefix_of_prefix hp (List.prefix_append (base ++ [name]) more) with
    hle | ⟨rest, rfl⟩
  · rcases List.prefix_concat_iff.mp hle with rfl | hle
    · rw [hmissing] at hkind
      cases hkind
    · exact h above hle kind hkind
  · have hnone : node.get? (base ++ [name]) = none := Option.map_eq_none_iff.mp hmissing
    rw [kindAt, get?_append, hnone] at hkind
    cases hkind

theorem Open.exists_entries {node : Node} {location : Location} (h : node.Open location) :
    ∃ entries, node = directory entries := by
  have hkind := h [] List.nil_prefix node.kind (kindAt_nil node)
  cases node with
  | file contents executable => cases hkind
  | link target => cases hkind
  | directory entries => exact ⟨entries, rfl⟩

theorem Open.child {entries : Entries} {name : String} {rest : Location}
    (h : (directory entries).Open (name :: rest)) :
    ((entries.find? name).getD (directory .nil)).Open rest := by
  intro above habove kind hkind
  cases hf : entries.find? name with
  | none =>
      rw [hf, Option.getD_none] at hkind
      cases above with
      | nil => rw [kindAt_nil] at hkind; exact (Option.some.inj hkind).symm
      | cons n above => rw [kindAt_nil_directory _ (by simp)] at hkind; cases hkind
  | some child =>
      rw [hf, Option.getD_some] at hkind
      refine h (name :: above) (List.cons_prefix_cons.mpr ⟨rfl, habove⟩) kind ?_
      rw [kindAt_cons, hf, Option.bind_some, hkind]

theorem kindAt_grow {node : Node} {location above : Location} (h : node.Open location)
    (hp : above <+: location) : (node.grow location).kindAt above = some .directory := by
  induction location generalizing node above with
  | nil =>
      obtain ⟨entries, rfl⟩ := h.exists_entries
      rw [List.prefix_nil.mp hp]
      rfl
  | cons name rest ih =>
      obtain ⟨entries, rfl⟩ := h.exists_entries
      cases above with
      | nil => rfl
      | cons n above =>
          obtain ⟨rfl, hrest⟩ := List.cons_prefix_cons.mp hp
          rw [grow, kindAt_cons, Entries.find?_insert_self, Option.bind_some]
          exact ih h.child hrest

theorem get?_grow {node : Node} {location other : Location} (h : node.Open location)
    (hp : ¬other <+: location) : (node.grow location).get? other = node.get? other := by
  induction location generalizing node other with
  | nil => rfl
  | cons name rest ih =>
      obtain ⟨entries, rfl⟩ := h.exists_entries
      cases other with
      | nil => exact absurd List.nil_prefix hp
      | cons n other =>
          rw [grow, get?_directory, get?_directory]
          by_cases hn : n = name
          · subst hn
            have hrest := ih h.child fun hrest => hp (List.cons_prefix_cons.mpr ⟨rfl, hrest⟩)
            rw [Entries.find?_insert_self, Option.bind_some, hrest]
            cases hf : entries.find? n with
            | some child => rfl
            | none =>
                have hne : other ≠ [] := by
                  rintro rfl
                  exact hp (List.cons_prefix_cons.mpr ⟨rfl, List.nil_prefix⟩)
                rw [Option.getD_none, get?_nil_directory _ hne, Option.bind_none]
          · rw [Entries.find?_insert_of_ne hn]

/-- No kind changes where there was one. -/
theorem kindAt_grow_of_some {node : Node} {location other : Location} (h : node.Open location)
    {kind : Kind} (hk : node.kindAt other = some kind) :
    (node.grow location).kindAt other = some kind := by
  by_cases hp : other <+: location
  · rw [kindAt_grow h hp, h other hp kind hk]
  · rw [kindAt, get?_grow h hp]
    exact hk

theorem grow_of_directory {node : Node} {location : Location} (h : node.Open location)
    (hd : node.kindAt location = some .directory) : node.grow location = node := by
  induction location generalizing node with
  | nil => rfl
  | cons name rest ih =>
      obtain ⟨entries, rfl⟩ := h.exists_entries
      have hchild := h.child
      rw [kindAt_cons] at hd
      obtain ⟨child, hf, hd⟩ := Option.bind_eq_some_iff.mp hd
      rw [hf, Option.getD_some] at hchild
      rw [grow, hf, Option.getD_some, ih hchild hd, Entries.insert_of_find? hf]

/-- The last directory is made in the one before it. -/
theorem grow_concat {node : Node} {location : Location} {name : String}
    (h : node.Open (location ++ [name])) (hnone : node.kindAt (location ++ [name]) = none) :
    node.grow (location ++ [name]) =
      (node.grow location).place (location ++ [name]) (directory .nil) := by
  induction location generalizing node with
  | nil =>
      obtain ⟨entries, rfl⟩ := h.exists_entries
      rw [List.nil_append, kindAt_cons] at hnone
      cases hf : entries.find? name with
      | none =>
          rw [List.nil_append, grow.eq_2, hf]
          rfl
      | some child =>
          rw [hf, Option.bind_some, kindAt_nil] at hnone
          cases hnone
  | cons n rest ih =>
      obtain ⟨entries, rfl⟩ := h.exists_entries
      have hrest := ih h.child (by
        rw [List.cons_append, kindAt_cons] at hnone
        cases hf : entries.find? n with
        | none => exact kindAt_nil_directory _ (by simp)
        | some child => rwa [hf] at hnone)
      rw [List.cons_append, grow, grow, hrest, place_cons (Entries.find?_insert_self _ _ _),
        Entries.insert_insert]

theorem get?_place_entry {node : Node} {parent : Location} {entries : Entries}
    (h : node.get? parent = some (directory entries)) (name : String) (new : Node)
    (rest : Location) :
    (node.place (parent ++ [name]) new).get? (parent ++ [name] ++ rest) = new.get? rest := by
  rw [place_concat_of_get? h, List.append_assoc, get?_place h, List.singleton_append,
    get?_directory, Entries.find?_insert_self, Option.bind_some]

section
variable {node : Node} {location other : Location} {contents : Bytes}

theorem Admits.exists_concat (h : node.Admits location) :
    ∃ parent name, location = parent ++ [name] ∧ node.Open parent := by
  have habove := h.above
  refine ⟨location.dropLast, location.getLast h.ne_nil,
    (List.dropLast_concat_getLast h.ne_nil).symm, habove⟩

theorem get?_put (h : node.Admits location) (contents : Bytes) :
    (node.put location contents).get? location =
      some (file contents (node.executableAt location)) := by
  obtain ⟨parent, name, rfl, hopen⟩ := h.exists_concat
  obtain ⟨entries, hparent⟩ := FileSystem.get?_of_kindAt (kindAt_grow hopen List.prefix_rfl)
  rw [put, List.dropLast_concat]
  have hentry := get?_place_entry hparent name
    (file contents (node.executableAt (parent ++ [name]))) []
  rwa [List.append_nil, get?_nil] at hentry

theorem kindAt_put_above (h : node.Admits location) (hp : other <+: location)
    (hne : other ≠ location) : (node.put location contents).kindAt other = some .directory := by
  obtain ⟨parent, name, rfl, hopen⟩ := h.exists_concat
  have hnot : ¬parent ++ [name] <+: other := fun hle =>
    hne (hp.eq_of_length_le hle.length_le)
  have habove : other <+: parent := by
    rcases List.prefix_concat_iff.mp hp with rfl | hp
    · exact absurd rfl hne
    · exact hp
  rw [put, List.dropLast_concat, kindAt_place hnot, kindAt_grow hopen habove]

theorem get?_put_of_incomparable (h : node.Admits location) (hp : ¬other <+: location)
    (hp' : ¬location <+: other) : (node.put location contents).get? other = node.get? other := by
  obtain ⟨parent, name, rfl, hopen⟩ := h.exists_concat
  rw [put, List.dropLast_concat, get?_place_of_incomparable hp' hp,
    get?_grow hopen fun habove => hp (habove.trans (List.prefix_append _ _))]

/-- What stood at and above the file before has the kind that it has afterwards. -/
theorem kindAt_put_of_some (h : node.Admits location) {kind : Kind}
    (hk : node.kindAt other = some kind) :
    (node.put location contents).kindAt other = some kind := by
  by_cases hp : other <+: location
  · by_cases hne : other = location
    · subst hne
      rw [kindAt, get?_put h, h.self kind hk]
      rfl
    · obtain ⟨parent, name, rfl, hopen⟩ := h.exists_concat
      rw [kindAt_put_above h hp hne]
      rcases List.prefix_concat_iff.mp hp with rfl | hp
      · exact absurd rfl hne
      · rw [hopen other hp kind hk]
  by_cases hp' : location <+: other
  · -- A file has nothing below it.
    obtain ⟨found, hfound, -⟩ := Option.map_eq_some_iff.mp hk
    obtain ⟨rest, rfl⟩ := hp'
    rw [get?_append] at hfound
    obtain ⟨inner, hinner, hrest⟩ := Option.bind_eq_some_iff.mp hfound
    have hfile := h.self inner.kind (by rw [kindAt, hinner]; rfl)
    cases inner with
    | link target => cases hfile
    | directory entries => cases hfile
    | file old executable =>
        cases rest with
        | nil => exact absurd (by simp) hp
        | cons name rest => cases hrest
  · rw [kindAt, get?_put_of_incomparable h hp hp']
    exact hk

end

section
variable {node inner : Node} {base location : Location}

/-- Directories are made below another by making them in the changed other one. -/
theorem grow_append (h : node.get? base = some inner) (location : Location) :
    node.grow (base ++ location) = node.place base (inner.grow location) := by
  induction base generalizing node with
  | nil =>
      obtain rfl : node = inner := by simpa using h
      rw [List.nil_append, place_nil]
  | cons name base ih =>
      obtain ⟨entries, child, rfl, hchild, hrest⟩ := exists_entry_of_get? h
      rw [List.cons_append, grow, hchild, Option.getD_some, place_cons hchild, ih hrest]

theorem put_append (h : node.get? base = some inner) (hne : location ≠ []) (contents : Bytes) :
    node.put (base ++ location) contents = node.place base (inner.put location contents) := by
  have hexecutable : node.executableAt (base ++ location) = inner.executableAt location := by
    rw [executableAt, executableAt, get?_append, h, Option.bind_some]
  have hgrown := get?_place h (inner.grow location.dropLast) []
  rw [List.append_nil, get?_nil] at hgrown
  rw [put, put, hexecutable, List.dropLast_append_of_ne_nil hne, grow_append h,
    place_append hgrown, place_place h]

/-- What fits below a directory fits into the directory. -/
theorem Admits.below (h : node.Admits (base ++ location)) (hbase : node.get? base = some inner)
    (hne : location ≠ []) : inner.Admits location := by
  have hkind (l : Location) : node.kindAt (base ++ l) = inner.kindAt l := by
    rw [kindAt, get?_append, hbase, Option.bind_some]
    rfl
  refine ⟨hne, fun above hp kind hk => ?_, fun kind hk => h.self kind ((hkind _).trans hk)⟩
  refine h.above (base ++ above) ?_ kind ((hkind _).trans hk)
  rw [List.dropLast_append_of_ne_nil hne]
  exact (List.prefix_append_right_inj base).mpr hp

end

def Apart (a b : Location) : Prop := ¬a <+: b ∧ ¬b <+: a

theorem Apart.symm {a b : Location} (h : Apart a b) : Apart b a := ⟨h.2, h.1⟩

theorem Admits.put {node : Node} {a b : Location} (hb : node.Admits b) (ha : node.Admits a)
    (hapart : Apart a b) (contents : Bytes) : (node.put a contents).Admits b where
  ne_nil := hb.ne_nil
  above above habove kind hkind := by
    by_cases hp : above <+: a
    · have hne : above ≠ a := by
        rintro rfl
        exact hapart.1 (habove.trans (List.dropLast_prefix b))
      rw [kindAt_put_above ha hp hne] at hkind
      exact (Option.some.inj hkind).symm
    · have hp' : ¬a <+: above := fun hle =>
        hapart.1 (hle.trans (habove.trans (List.dropLast_prefix b)))
      rw [kindAt, get?_put_of_incomparable ha hp hp'] at hkind
      exact hb.above above habove kind hkind
  self kind hkind := by
    rw [kindAt, get?_put_of_incomparable ha hapart.2 hapart.1] at hkind
    exact hb.self kind hkind

def putAll (node : Node) (files : List (Location × Bytes)) : Node :=
  files.foldl (fun node file => node.put file.1 file.2) node

/-- Files are put over a tree: they are there, directories stand above them, and all that is beside
them is as before. -/
structure Overlays (files : List (Location × Bytes)) (before after : Node) : Prop where
  there : ∀ file ∈ files,
    after.get? file.1 = some (.file file.2 (before.executableAt file.1))
  above : ∀ file ∈ files, ∀ other, other <+: file.1 → other ≠ file.1 →
    after.kindAt other = some .directory
  beside : ∀ other, (∀ file ∈ files, Apart file.1 other) → after.get? other = before.get? other

theorem overlays_putAll {node : Node} {files : List (Location × Bytes)}
    (hadmits : ∀ file ∈ files, node.Admits file.1)
    (hapart : files.Pairwise fun a b => Apart a.1 b.1) :
    Overlays files node (node.putAll files) := by
  induction files generalizing node with
  | nil => exact ⟨by simp, by simp, fun _ _ => rfl⟩
  | cons file rest ih =>
      obtain ⟨hfirst, hrest⟩ := List.pairwise_cons.mp hapart
      have hfile := hadmits file List.mem_cons_self
      have hothers : ∀ other ∈ rest, (node.put file.1 file.2).Admits other.1 := fun other hother =>
        (hadmits other (List.mem_cons_of_mem _ hother)).put hfile (hfirst other hother) _
      have hoverlays := ih hothers hrest
      refine ⟨fun other hother => ?_, fun other hother above hp hne => ?_, fun other hother => ?_⟩
      · rcases List.mem_cons.mp hother with rfl | hother
        · exact (hoverlays.beside _ fun more hmore => (hfirst more hmore).symm).trans
            (get?_put hfile _)
        · have hsame : (node.put file.1 file.2).get? other.1 = node.get? other.1 :=
            get?_put_of_incomparable hfile (hfirst other hother).2 (hfirst other hother).1
          refine (hoverlays.there other hother).trans ?_
          rw [executableAt, executableAt, hsame]
      · rcases List.mem_cons.mp hother with rfl | hother
        · have hkind : (node.put other.1 other.2).kindAt above = some .directory :=
            kindAt_put_above hfile hp hne
          by_cases hover : ∃ more ∈ rest, above <+: more.1
          · obtain ⟨more, hmore, hpmore⟩ := hover
            refine hoverlays.above more hmore above hpmore ?_
            rintro rfl
            exact (hfirst more hmore).2 hp
          · have hbeside := hoverlays.beside above fun more hmore =>
              ⟨fun hle => (hfirst more hmore).2 (hle.trans hp),
                fun hle => hover ⟨more, hmore, hle⟩⟩
            exact (congrArg (Option.map kind) hbeside).trans hkind
        · exact hoverlays.above other hother above hp hne
      · have hthis := hother file List.mem_cons_self
        exact (hoverlays.beside other fun more hmore =>
          hother more (List.mem_cons_of_mem _ hmore)).trans
            (get?_put_of_incomparable hfile hthis.2 hthis.1)

end Node

end BuildMatrix
