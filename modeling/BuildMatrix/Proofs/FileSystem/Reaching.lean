import BuildMatrix.Proofs.FileSystem.Making

/-!
# Paths of directories

A path reaches a location if a directory is there, or if one can be made there because nothing is
missing but directories. What is written below the path is put below the location, with the
directories that it needs, and the path reaches the location afterwards.
-/

namespace BuildMatrix

namespace Text

theorem toList_joinWith (name : String) (rest : List String) :
    (joinWith "/" (name :: rest)).toList =
      name.toList ++ rest.flatMap fun name => '/' :: name.toList := by
  induction rest generalizing name with
  | nil => exact (List.append_nil _).symm
  | cons next rest ih =>
      have hjoin : joinWith "/" (name :: next :: rest) =
          joinWith "/" ((name ++ "/" ++ next) :: rest) := rfl
      rw [hjoin, ih]
      simp

theorem toList_joinWith_cons (name next : String) (rest : List String) :
    (joinWith "/" (name :: next :: rest)).toList =
      name.toList ++ '/' :: (joinWith "/" (next :: rest)).toList := by
  rw [toList_joinWith, toList_joinWith, List.flatMap_cons, List.cons_append]

theorem utf8ByteSize_joinWith (name : String) (rest : List String) :
    (joinWith "/" (name :: rest)).utf8ByteSize =
      rest.foldr (fun name size => 1 + name.utf8ByteSize + size) 0 + name.utf8ByteSize := by
  induction rest generalizing name with
  | nil => exact (Nat.zero_add _).symm
  | cons next rest ih =>
      have hjoin : joinWith "/" (name :: next :: rest) =
          joinWith "/" ((name ++ "/" ++ next) :: rest) := rfl
      have hslash : ("/" : String).utf8ByteSize = 1 := by decide
      rw [hjoin, ih, String.utf8ByteSize_append, String.utf8ByteSize_append, hslash,
        List.foldr_cons]
      omega

theorem not_mem_of_mem_splitAt {sep : Char} {s part : List Char} (h : part ∈ splitAt sep s) :
    sep ∉ part := by
  induction s generalizing part with
  | nil =>
      obtain rfl : part = [] := by simpa [splitAt] using h
      simp
  | cons c s ih =>
      rw [splitAt] at h
      split at h
      · rcases List.mem_cons.mp h with rfl | h
        · simp
        · exact ih h
      · next hc =>
          cases hs : splitAt sep s with
          | nil => exact absurd hs (splitAt_ne_nil sep s)
          | cons first rest =>
              rw [hs] at h ih
              rcases List.mem_cons.mp h with rfl | h
              · have hfirst := ih List.mem_cons_self
                simp [Ne.symm hc, hfirst]
              · exact ih (List.mem_cons_of_mem _ h)

end Text

namespace Path

theorem names_joinWith {location : Location} (h : ∀ name ∈ location, IsName name) :
    names (Text.joinWith "/" location) = location := by
  induction location with
  | nil => decide
  | cons name rest ih =>
      have hname := h name List.mem_cons_self
      cases rest with
      | nil => exact hname.names_eq
      | cons next rest =>
          have hrest := ih fun n hn => h n (List.mem_cons_of_mem _ hn)
          rw [names_eq, Text.toList_joinWith_cons, namesIn_append, ← names_eq, ← names_eq, hrest,
            hname.names_eq, List.singleton_append]

theorem isAbsolute_joinWith {location : Location} (h : ∀ name ∈ location, IsName name) :
    isAbsolute (Text.joinWith "/" location) = false := by
  cases location with
  | nil => decide
  | cons name rest =>
      have hname := h name List.mem_cons_self
      have hfirst : (Text.joinWith "/" (name :: rest)).toList.head? = name.toList.head? := by
        cases rest with
        | nil => rfl
        | cons next rest =>
            rw [Text.toList_joinWith_cons]
            cases hl : name.toList with
            | nil => exact absurd (by simpa using hl) hname.nonempty
            | cons c s => rfl
      have hrelative := hname.isAbsolute_eq
      rw [isAbsolute] at hrelative ⊢
      rw [hfirst]
      exact hrelative

theorem isContained_joinWith {location : Location} (hne : location ≠ [])
    (h : ∀ name ∈ location, IsName name) : isContained (Text.joinWith "/" location) := by
  have hnames := names_joinWith h
  have hempty : Text.joinWith "/" location ≠ "" := by
    intro hempty
    rw [hempty] at hnames
    exact hne hnames.symm
  have hcomponents : components (Text.joinWith "/" location) = location.map .name := by
    have hinner : location.filterMap inner? = location.map .name := by
      clear hnames hempty hne
      induction location with
      | nil => rfl
      | cons name rest ih =>
          have hname := h name List.mem_cons_self
          have hfirst : inner? name = some (.name name) := by
            rw [inner?, if_neg hname.here, if_neg hname.up]
          rw [List.filterMap_cons_some hfirst, List.map_cons,
            ih fun n hn => h n (List.mem_cons_of_mem _ hn)]
    unfold components
    simp only [isAbsolute_joinWith h, Bool.false_eq_true, if_false, hnames]
    split
    · next rest => exact absurd rfl (h "." List.mem_cons_self).here
    · exact hinner
  rw [isContained, hcomponents]
  simp [hempty]

theorem getLast?_joinWith {location : Location} (h : ∀ name ∈ location, IsName name) :
    (Text.joinWith "/" location).toList.getLast? ≠ some '/' := by
  induction location with
  | nil => decide
  | cons name rest ih =>
      have hname := h name List.mem_cons_self
      cases rest with
      | nil =>
          intro hlast
          exact hname.slash (List.mem_of_getLast? hlast)
      | cons next rest =>
          have hrest := fun n hn => h n (List.mem_cons_of_mem name hn)
          have hne : (Text.joinWith "/" (next :: rest)).toList ≠ [] := by
            intro hnil
            have hnames := names_joinWith hrest
            rw [names_eq, hnil] at hnames
            cases hnames
          obtain ⟨c, s, hcons⟩ := List.exists_cons_of_ne_nil hne
          have hlast := ih hrest
          rw [hcons] at hlast
          rwa [Text.toList_joinWith_cons, hcons, List.getLast?_append, List.getLast?_cons_cons,
            List.getLast?_eq_some_getLast (List.cons_ne_nil c s), Option.some_or,
            ← List.getLast?_eq_some_getLast (List.cons_ne_nil c s)]

theorem trimmed_join {location : Location} (hne : location ≠ [])
    (h : ∀ name ∈ location, IsName name) (base : String) :
    Trimmed (join base (Text.joinWith "/" location)) := by
  have hrelative := isAbsolute_joinWith h
  have hnames := names_joinWith h
  refine .inr ⟨?_, names base ++ location.dropLast, location.getLast hne, ?_,
    (h _ (List.getLast_mem hne)).here⟩
  · have hnil : (Text.joinWith "/" location).toList ≠ [] := by
      intro hnil
      rw [names_eq, hnil] at hnames
      exact hne hnames.symm
    have hlast := getLast?_joinWith h
    obtain ⟨c, s, hcons⟩ := List.exists_cons_of_ne_nil hnil
    have hend (front : List Char) :
        (front ++ (Text.joinWith "/" location).toList).getLast? ≠ some '/' := by
      rw [hcons] at hlast ⊢
      rwa [List.getLast?_append, List.getLast?_eq_some_getLast (List.cons_ne_nil c s),
        Option.some_or, ← List.getLast?_eq_some_getLast (List.cons_ne_nil c s)]
    rw [endsInSlash, decide_eq_false_iff_not]
    rcases toList_join base hrelative with ⟨hj, -⟩ | ⟨hj, -⟩
    · rw [hj]
      exact hend base.toList
    · rw [hj, ← List.singleton_append, ← List.append_assoc]
      exact hend _
  · rw [names_join hrelative, hnames, List.append_assoc, List.dropLast_concat_getLast]

/-- Names are joined to a path one by one or as a path of their own. -/
theorem foldl_join {location : Location} (hne : location ≠ []) (h : ∀ name ∈ location, IsName name)
    (base : String) : location.foldl join base = join base (Text.joinWith "/" location) := by
  induction location generalizing base with
  | nil => exact absurd rfl hne
  | cons name rest ih =>
      have hname := h name List.mem_cons_self
      have hrest := fun n hn => h n (List.mem_cons_of_mem name hn)
      cases rest with
      | nil => rfl
      | cons next rest =>
          have hrelative := isAbsolute_joinWith hrest
          have hall := isAbsolute_joinWith h
          rw [List.foldl_cons, ih (by simp) hrest, ← String.toList_inj]
          -- The first joined path ends in a name, so a slash comes between it and the others.
          rcases toList_join (join base name) hrelative with ⟨-, hempty | hslash⟩ | ⟨hj, -⟩
          · exact absurd hempty (hname.join_ne_empty base)
          · rw [hname.endsInSlash_join] at hslash
            cases hslash
          obtain ⟨front, hfront⟩ := exists_front_join base
          rw [hj, hfront name hname.isAbsolute_eq, hfront _ hall, Text.toList_joinWith_cons,
            List.append_assoc]

theorem foldl_join_ne_empty {location : Location} (h : ∀ name ∈ location, IsName name)
    {base : String} (hne : base ≠ "") : location.foldl join base ≠ "" := by
  induction location generalizing base with
  | nil => exact hne
  | cons name rest ih =>
      exact ih (fun n hn => h n (List.mem_cons_of_mem name hn))
        ((h name List.mem_cons_self).join_ne_empty base)

theorem toList_ofLocation (location : Location) :
    (ofLocation location).toList = '/' :: (Text.joinWith "/" location).toList := by
  rw [ofLocation, String.toList_append]
  rfl

theorem names_ofLocation {location : Location} (h : ∀ name ∈ location, IsName name) :
    names (ofLocation location) = location := by
  have happend := namesIn_append [] (Text.joinWith "/" location).toList
  rw [names_eq, toList_ofLocation]
  exact happend.trans (names_joinWith h)

theorem names_ne_nil {path : String} (hne : path ≠ "") (h : isAbsolute path = false) :
    names path ≠ [] := by
  rw [names_eq, namesIn]
  cases hpath : path.toList with
  | nil => exact absurd (by simpa using hpath) hne
  | cons c s =>
      have hc : c ≠ '/' := by
        rintro rfl
        simp [isAbsolute, hpath] at h
      rw [Text.splitAt, if_neg hc]
      cases Text.splitAt '/' s with
      | nil => simp
      | cons part parts => simp

/-- What is below a directory is in a directory that has a path. -/
theorem Continues.parent_ne_empty {base parent last : String} {location : Location}
    (hc : Continues (join base (Text.joinWith "/" location)) parent last) (hbase : base ≠ "")
    (hne : location ≠ []) (h : ∀ name ∈ location, IsName name) : parent ≠ "" := by
  rintro rfl
  have hrelative := isAbsolute_joinWith h
  have habsolute : isAbsolute base = false := by
    rw [← isAbsolute_join hrelative base, ← hc.absolute]
    rfl
  obtain ⟨before, after, hnames, hbefore⟩ := hc.names
  rw [hbefore rfl, names_join hrelative, names_joinWith h] at hnames
  -- The only name that is no dot would be the first, so the directory would have no name.
  have hlast : after = 0 := by
    by_contra hafter
    obtain ⟨more, rfl⟩ := Nat.exists_eq_succ_of_ne_zero hafter
    have hend := congrArg List.getLast? hnames
    rw [List.replicate_succ', List.getLast?_append, List.getLast?_eq_some_getLast hne,
      Option.some_or, ← List.cons_append, ← List.append_assoc, List.getLast?_concat] at hend
    exact (h _ (List.getLast_mem hne)).here (Option.some.inj hend)
  subst hlast
  have hlength := congrArg List.length hnames
  have hfirst := List.length_pos_iff.mpr (names_ne_nil hbase habsolute)
  have hsecond := List.length_pos_iff.mpr hne
  have hnone : Path.names "" = [] := by decide
  simp only [List.length_append, hnone, List.replicate_zero, List.append_nil, List.nil_append,
    List.length_singleton] at hlength
  omega

theorem isName_of_mem_names {path name : String} (h : name ∈ names path) (hhere : name ≠ ".")
    (hup : name ≠ "..") : IsName name := by
  obtain ⟨part, hpart, rfl⟩ := List.mem_map.mp h
  obtain ⟨hmem, hempty⟩ := List.mem_filter.mp hpart
  refine ⟨?_, ?_, hhere, hup⟩
  · intro hnil
    have hlist := congrArg String.toList hnil
    rw [String.toList_ofList] at hlist
    rw [hlist] at hempty
    cases hempty
  · rw [String.toList_ofList]
    exact Text.not_mem_of_mem_splitAt hmem

end Path

namespace FileSystem

open Node (kindAt)

theorem IsUsable.of_join {base path : String} (h : IsUsable (Path.join base path))
    (hne : base ≠ "") (hrelative : Path.isAbsolute path = false) : IsUsable base := by
  refine h.of_prefix ?_ hne
  rcases Path.toList_join base hrelative with ⟨hj, -⟩ | ⟨hj, -⟩
  · rw [hj]
    exact List.prefix_append _ _
  · rw [hj]
    exact List.prefix_append _ _

theorem IsUsable.of_foldl_join {base : String} {location : Location}
    (h : IsUsable (location.foldl Path.join base)) (hne : base ≠ "")
    (hnames : ∀ name ∈ location, IsName name) : IsUsable base := by
  induction location generalizing base with
  | nil => exact h
  | cons name rest ih =>
      have hname := hnames name List.mem_cons_self
      have hjoined := ih h (hname.join_ne_empty base) fun n hn =>
        hnames n (List.mem_cons_of_mem name hn)
      exact hjoined.of_join hne hname.isAbsolute_eq

/-- A path that leads to a directory, or to where one can be made: its first names lead to a
directory, with all links followed, and the others name directories below it or are missing. -/
structure Reaches (fs : FileSystem) (path : String) (location : Location) : Prop where
  nonempty : path ≠ ""
  descends : ∃ base trail, location = base ++ trail ∧ fs.root.kindAt base = some .directory ∧
    Descends fs path base trail
  isOpen : fs.root.Open location

section
variable {root root' : Node} {follow : Bool} {more : List String} {place : Place}

/--
The first names of a walk lead somewhere. All of them do if the walk ends at what is there, with
links followed, or where nothing is and something that is no link has come to be there since.
-/
theorem leads_of_walkNames_front
    (hkeep : ∀ l kind, root.kindAt l = some kind → root'.kindAt l = some kind)
    (hend : more = [] → (∃ node, follow = true ∧ place = .present place.location node) ∨
      ∃ kind, place = .absent place.location ∧ root'.kindAt place.location = some kind ∧
        ∀ target, kind ≠ .link target) {links : Nat}
    {enter : Location → String → List String → Except FileError Place}
    (henter : ∀ location target rest, enter location target (rest ++ more) = .ok place →
      target ≠ "" ∧ ∃ less links' found, links = less + 1 ∧
        Leads (fun _ => False) root' less (if Path.isAbsolute target then [] else location)
          (Path.names target ++ rest) links' found ∧ (more = [] → found = place.location))
    {location : Location} {names : List String}
    (h : walkNames root follow enter location (names ++ more) = .ok place) :
    ∃ links' found, Leads (fun _ => False) root' links location names links' found ∧
      (more = [] → found = place.location) := by
  induction names generalizing location with
  | nil =>
      refine ⟨links, location, .done, fun hmore => ?_⟩
      subst hmore
      rw [List.append_nil] at h
      obtain ⟨node, -, hplace⟩ := found_of_walkNames_nil h
      rw [hplace]
      rfl
  | cons name rest ih =>
      obtain ⟨entries, he, hstep⟩ := steps_of_walkNames h
      have hd := hkeep _ _ (kindAt_of_get? he)
      have hchild := Node.get?_concat he name
      cases hstep with
      | here hdot hwalk =>
          subst hdot
          obtain ⟨links', found, hrest, hfound⟩ := ih hwalk
          exact ⟨links', found, .here hd hrest, hfound⟩
      | up hdots hwalk =>
          subst hdots
          obtain ⟨links', found, hrest, hfound⟩ := ih hwalk
          exact ⟨links', found, .up hd hrest, hfound⟩
      | absent hname _ hlast hplace =>
          subst hplace
          obtain ⟨rfl, rfl⟩ := List.append_eq_nil_iff.mp hlast
          rcases hend rfl with ⟨_, -, hpresent⟩ | ⟨kind, -, hkind, hlink⟩
          · cases hpresent
          · exact ⟨links, _, .down hname hkind hlink id .done, fun _ => rfl⟩
      | link target _ _ hlast hkept hplace =>
          subst hplace
          rcases hend (List.append_eq_nil_iff.mp hlast).2 with ⟨_, hfollow, -⟩ | ⟨_, habsent, -⟩
          · rw [hkept] at hfollow
            cases hfollow
          · cases habsent
      | through target hname hf henters =>
          obtain ⟨htarget, less, links', found, rfl, hrest, hfound⟩ := henter _ _ _ henters
          have hkind := hkeep _ _ (kindAt_of_get? (hchild.trans hf))
          exact ⟨links', found, .through hname hkind htarget id hrest, hfound⟩
      | down child hname hf hlink hwalk =>
          obtain ⟨links', found, hrest, hfound⟩ := ih hwalk
          have hkind := hkeep _ _ (kindAt_of_get? (hchild.trans hf))
          refine ⟨links', found, .down hname hkind ?_ id hrest, hfound⟩
          intro target hkind
          cases child with
          | link other => exact hlink other rfl
          | file contents executable => cases hkind
          | directory inner => cases hkind

theorem leads_of_walk_front {links : Nat} {location : Location} {names : List String}
    (h : walk root follow links location (names ++ more) = .ok place)
    (hkeep : ∀ l kind, root.kindAt l = some kind → root'.kindAt l = some kind)
    (hend : more = [] → (∃ node, follow = true ∧ place = .present place.location node) ∨
      ∃ kind, place = .absent place.location ∧ root'.kindAt place.location = some kind ∧
        ∀ target, kind ≠ .link target) :
    ∃ links' found, Leads (fun _ => False) root' links location names links' found ∧
      (more = [] → found = place.location) := by
  induction links generalizing location names with
  | zero => exact leads_of_walkNames_front hkeep hend (fun _ _ _ hp => by cases hp) h
  | succ links ih =>
      refine leads_of_walkNames_front hkeep hend (fun location target rest hp => ?_) h
      split at hp
      · cases hp
      · next hempty =>
          rw [← List.append_assoc] at hp
          obtain ⟨links', found, hrest, hfound⟩ := ih hp
          exact ⟨by simpa using hempty, links, links', found, rfl, hrest, hfound⟩

/-- A walk that finds something is one that the names lead along. -/
theorem leads_of_walk {links : Nat} {location found : Location} {names : List String}
    {node : Node} (h : walk root true links location names = .ok (.present found node)) :
    ∃ links', Leads (fun _ => False) root links location names links' found := by
  rw [← List.append_nil names] at h
  obtain ⟨links', location', hleads, hfound⟩ :=
    leads_of_walk_front h (fun _ _ hk => hk) fun _ => .inl ⟨node, rfl, rfl⟩
  obtain rfl : location' = found := hfound rfl
  exact ⟨links', hleads⟩

end

section
variable {fs : FileSystem} {path : String} {location : Location}

theorem reaches_of_lookup {entries : Entries}
    (h : fs.lookup true path = .ok (.present location (.directory entries))) :
    Reaches fs path location := by
  have hget : fs.root.get? location = some (.directory entries) := found_of_lookup h
  obtain ⟨links, hleads⟩ := leads_of_walk (walk_of_lookup h)
  refine ⟨(isUsable_of_lookup h).nonempty, ⟨location, [], (List.append_nil _).symm,
    kindAt_of_get? hget, ⟨Path.names path, [], links, (List.append_nil _).symm, rfl, hleads⟩,
    by simp⟩, Node.open_of_directory hget⟩

/-- A path whose last names are missing reaches where they say. -/
theorem reaches_of_missing {base more : Location} {name : String} {entries : Entries}
    (hne : path ≠ "") (hbase : fs.root.get? base = some (.directory entries))
    (hmissing : entries.find? name = none) (h : Descends fs path base (name :: more)) :
    Reaches fs path (base ++ name :: more) := by
  have hnone : fs.root.kindAt (base ++ [name]) = none := by
    rw [kindAt, Node.get?_concat hbase, hmissing, Option.map_none]
  exact ⟨hne, ⟨base, _, rfl, kindAt_of_get? hbase, h⟩,
    (Node.open_of_directory hbase).append_missing hnone more⟩

/-- The path of a location reaches it if there is nothing of its first name. -/
theorem reaches_ofLocation {name : String} {more : Location} {entries : Entries}
    (hroot : fs.root = .directory entries) (hmissing : entries.find? name = none)
    (h : ∀ n ∈ name :: more, IsName n ∧ IsEntryName n) :
    Reaches fs (Path.ofLocation (name :: more)) (name :: more) := by
  have hlist := Path.toList_ofLocation (name :: more)
  have hne : Path.ofLocation (name :: more) ≠ "" := by
    intro hempty
    rw [hempty] at hlist
    cases hlist
  have habsolute : Path.isAbsolute (Path.ofLocation (name :: more)) = true := by
    rw [Path.isAbsolute, hlist]
    rfl
  have hdots : (name :: more).filter (· ≠ ".") = name :: more :=
    List.filter_eq_self.mpr fun n hn => by simpa using (h n hn).1.here
  have hbase : fs.root.get? [] = some (.directory entries) := by rw [hroot, Node.get?_nil]
  refine reaches_of_missing hne hbase hmissing
    ⟨⟨[], name :: more, linkLimit, ?_, hdots, ?_⟩, fun n hn => (h n hn).2⟩
  · exact Path.names_ofLocation fun n hn => (h n hn).1
  · rw [startOf, habsolute]
    exact .done

theorem Reaches.get?_of_node? (h : Reaches fs path location) {node : Node}
    (hn : fs.node? path = some node) : fs.root.get? location = some node := by
  obtain ⟨base, trail, rfl, hbase, ⟨front, rest, links, hnames, rfl, hleads⟩, hentries⟩ :=
    h.descends
  obtain ⟨found, hlookup⟩ := exists_lookup_of_node? hn
  have hwalk := walk_of_lookup hlookup
  rw [Bool.true_or, hnames, hleads.walk_append (.inr rfl)] at hwalk
  have hplace := walk_unlinked ?_ ?_ hwalk
  · rw [← hplace]
    exact found_of_lookup hlookup
  · intro passed _ hp target hkind
    have hdirectory := h.isOpen (base ++ passed) ((List.prefix_append_right_inj base).mpr hp) _ hkind
    cases hdirectory
  · intro hup
    exact (hentries ".." (List.mem_filter.mpr ⟨hup, by simp⟩)).2.1 rfl

theorem Reaches.node?_eq (h : Reaches fs path location) (hu : IsUsable path) {entries : Entries}
    (hd : fs.root.get? location = some (.directory entries)) :
    fs.node? path = some (.directory entries) := by
  obtain ⟨base, trail, rfl, hbase, hdescends⟩ := h.descends
  obtain ⟨inner, hinner⟩ := get?_of_kindAt hbase
  obtain ⟨links, hleads⟩ := hdescends.leads_to hinner fun passed hp => by
    rw [← kindAt_append hinner]
    exact directories_above h.isOpen (kindAt_of_get? hd) _
      ((List.prefix_append_right_inj base).mpr hp)
  rw [node?, lookup_of_leads hu hleads hd]

variable {below : Location} {contents : Bytes}

theorem Reaches.put (h : Reaches fs path location) (hadmits : fs.root.Admits (location ++ below))
    (hne : below ≠ []) (contents : Bytes) :
    Reaches { fs with root := fs.root.put (location ++ below) contents } path location where
  nonempty := h.nonempty
  descends := by
    obtain ⟨base, trail, hlocation, hbase, ⟨front, rest, links, hnames, htrail, hleads⟩, hentries⟩ :=
      h.descends
    have hkeep (l : Location) (kind : Node.Kind) (hk : fs.root.kindAt l = some kind) :
        (fs.root.put (location ++ below) contents).kindAt l = some kind :=
      Node.kindAt_put_of_some hadmits hk
    exact ⟨base, trail, hlocation, hkeep _ _ hbase,
      ⟨front, rest, links, hnames, htrail, hleads.keep hkeep⟩, hentries⟩
  isOpen above hp kind hkind := by
    have hne : above ≠ location ++ below := by
      rintro rfl
      exact hne (List.self_eq_append_right.mp (hp.eq_of_length_le (by simp)).symm)
    rw [Node.kindAt_put_above hadmits (hp.trans (List.prefix_append _ _)) hne] at hkind
    exact (Option.some.inj hkind).symm

theorem Descends.join {base trail : Location} (h : Descends fs path base trail)
    (hbelow : ∀ name ∈ below, IsName name ∧ IsEntryName name) :
    Descends fs (Path.join path (Text.joinWith "/" below)) base (trail ++ below) := by
  have hnames : ∀ name ∈ below, IsName name := fun name hname => (hbelow name hname).1
  obtain ⟨⟨front, rest, links, hfront, rfl, hleads⟩, hentries⟩ := h
  have hrelative := Path.isAbsolute_joinWith hnames
  have hdots : below.filter (· ≠ ".") = below :=
    List.filter_eq_self.mpr fun name hname => by simpa using (hnames name hname).here
  refine ⟨⟨front, rest ++ below, links, ?_, ?_, ?_⟩, fun name hname => ?_⟩
  · rw [Path.names_join hrelative, hfront, Path.names_joinWith hnames, List.append_assoc]
  · rw [List.filter_append, hdots]
  · rwa [startOf_join hrelative]
  · rcases List.mem_append.mp hname with hname | hname
    · exact hentries name hname
    · exact (hbelow name hname).2

/-- A file is written below the directory, once the directories above it are made. -/
theorem Reaches.write_below (h : Reaches fs path location)
    (hbelow : ∀ name ∈ below, IsName name ∧ IsEntryName name) (hne : below ≠ [])
    (hu : IsUsable (Path.join path (Text.joinWith "/" below)))
    (hadmits : fs.root.Admits (location ++ below)) (contents : Bytes) :
    ∃ made, fs.makeDirectories ((Path.parent? (Path.join path (Text.joinWith "/" below))).getD "") =
        (made, .ok ()) ∧
      made.write (Path.join path (Text.joinWith "/" below)) contents =
        .ok { fs with root := fs.root.put (location ++ below) contents } := by
  have hnames : ∀ name ∈ below, IsName name := fun name hname => (hbelow name hname).1
  obtain ⟨base, trail, rfl, hbase, hdescends⟩ := h.descends
  obtain ⟨inner, hinner⟩ := get?_of_kindAt hbase
  have hjoined := hdescends.join hbelow
  have hsteps : Path.steps (Path.join path (Text.joinWith "/" below)) ≠ [] := by
    rw [← List.dropLast_concat_getLast hne, ← List.append_assoc,
      List.dropLast_concat_getLast hne] at hjoined
    exact hjoined.steps_ne_nil
  obtain ⟨parent, last, hparent, hc⟩ := Path.exists_parent? hsteps
  have hne' : trail ++ below ≠ [] := by simp [hne]
  rw [List.append_assoc] at hadmits
  obtain ⟨made, hmade, hwritten⟩ := hjoined.put hu (Path.trimmed_join hne hnames path) hinner
    (hadmits.below hinner hne') hparent hc (hc.parent_ne_empty h.nonempty hne hnames) contents
  refine ⟨made, ?_, ?_⟩
  · rw [hparent]
    exact hmade
  · rw [hwritten, placeAt, List.append_assoc, Node.put_append hinner hne']

end

end FileSystem

end BuildMatrix
