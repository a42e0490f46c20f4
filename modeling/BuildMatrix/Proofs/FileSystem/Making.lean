import BuildMatrix.Proofs.FileSystem.Entry
import BuildMatrix.Proofs.FileSystem.Growth
import BuildMatrix.Proofs.FileSystem.Parent
import Mathlib.Data.List.Induction

/-!
# Making directories below a directory

The first names of a path lead to a directory, and the others name what is below it, where no links
are. The directories that are missing on this trail are made, and the path leads to a file that is
put at its end.
-/

namespace BuildMatrix.FileSystem

open Node (kindAt)

/-- The first names of a path lead to a base, with all links followed, and the others, without
single dots, are names of entries. -/
structure Descends (fs : FileSystem) (path : String) (base trail : Location) : Prop where
  leads : ∃ front rest links, Path.names path = front ++ rest ∧ rest.filter (· ≠ ".") = trail ∧
    Leads (fun _ => False) fs.root linkLimit (fs.startOf path) front links base
  entryNames : ∀ name ∈ trail, IsEntryName name

/-- What leads somewhere does so as long as nothing loses its kind. -/
theorem Leads.keep {avoid : Location → Prop} {root root' : Node} {links links' : Nat}
    {location location' : Location} {names : List String}
    (h : Leads avoid root links location names links' location')
    (hkeep : ∀ l kind, root.kindAt l = some kind → root'.kindAt l = some kind) :
    Leads avoid root' links location names links' location' := by
  induction h with
  | done => exact .done
  | here hd _ ih => exact .here (hkeep _ _ hd) ih
  | up hd _ ih => exact .up (hkeep _ _ hd) ih
  | down hn hk hl ha _ ih => exact .down hn (hkeep _ _ hk) hl ha ih
  | through hn hk ht ha _ ih => exact .through hn (hkeep _ _ hk) ht ha ih

theorem Leads.walk_present {avoid : Location → Prop} {root : Node} {links links' : Nat}
    {location location' : Location} {names : List String}
    (h : Leads avoid root links location names links' location')
    (hend : root.kindAt location' ≠ none) (follow : Bool) :
    ∃ found node, walk root follow links location names = .ok (.present found node) := by
  induction h with
  | @done links location =>
      rw [walk_nil]
      cases hget : root.get? location with
      | none => simp [kindAt, hget] at hend
      | some node => exact ⟨_, _, rfl⟩
  | here hd _ ih =>
      obtain ⟨entries, he⟩ := get?_of_kindAt hd
      rw [walk_here he]
      exact ih hend
  | up hd _ ih =>
      obtain ⟨entries, he⟩ := get?_of_kindAt hd
      rw [walk_up he]
      exact ih hend
  | down hn hk hl _ _ ih =>
      obtain ⟨entries, child, he, hf, rfl⟩ := exists_entry_of_kindAt hk
      rw [walk_down he hn hf]
      · exact ih hend
      · rintro target rfl
        exact hl target rfl
  | @through links links' location location' name rest target hn hk ht _ _ ih =>
      obtain ⟨entries, he, hf⟩ := exists_link_of_kindAt hk
      by_cases hfollow : rest ≠ [] ∨ follow = true
      · rw [walk_through he hn hf hfollow ht]
        exact ih hend
      · obtain ⟨rfl, rfl⟩ : rest = [] ∧ follow = false := by simpa using hfollow
        rw [walk_link he hn hf]
        exact ⟨_, _, rfl⟩

theorem lookup_of_leads {fs : FileSystem} {path : String} {links : Nat} {location : Location}
    {entries : Entries} (hu : IsUsable path)
    (h : Leads (fun _ => False) fs.root linkLimit (fs.startOf path) (Path.names path) links
      location) (hd : fs.root.get? location = some (.directory entries)) :
    fs.lookup true path = .ok (.present location (.directory entries)) := by
  have hwalk : walk fs.root true linkLimit (fs.startOf path) (Path.names path ++ []) =
      walk fs.root true links location [] := h.walk_append (.inr rfl)
  rw [List.append_nil, walk_nil, hd] at hwalk
  rw [lookup_of_isUsable hu, Bool.true_or, hwalk]

theorem isDirectory_of_leads {fs : FileSystem} {path : String} {links : Nat} {location : Location}
    (hu : IsUsable path)
    (h : Leads (fun _ => False) fs.root linkLimit (fs.startOf path) (Path.names path) links
      location) (hd : fs.root.kindAt location = some .directory) :
    fs.isDirectory path ∧ ∃ place, fs.lookup false path = .ok place ∧
      ∀ location, place ≠ .absent location := by
  obtain ⟨entries, hget⟩ := get?_of_kindAt hd
  have hlookup := lookup_of_leads hu h hget
  refine ⟨by rw [FileSystem.isDirectory, node?, hlookup], ?_⟩
  cases hslash : Path.endsInSlash path with
  | true =>
      rw [lookup_of_isUsable hu, hslash, Bool.or_true] at hlookup
      rw [lookup_of_isUsable hu, hslash, Bool.or_true]
      exact ⟨_, hlookup, by simp⟩
  | false =>
      obtain ⟨found, node, hwalk⟩ := h.walk_present (by simp [hd]) false
      exact ⟨_, (lookup_eq_walk hu hslash).trans hwalk, by simp⟩

theorem leads_along {root : Node} {links : Nat} {base : Location} {rest : List String}
    (hnames : ∀ name ∈ rest.filter (· ≠ "."), IsEntryName name)
    (hdirectories : ∀ passed, passed <+: rest.filter (· ≠ ".") →
      root.kindAt (base ++ passed) = some .directory) :
    Leads (fun _ => False) root links base rest links (base ++ rest.filter (· ≠ ".")) := by
  induction rest generalizing base with
  | nil =>
      rw [List.filter_nil, List.append_nil]
      exact .done
  | cons name rest ih =>
      by_cases hdot : name = "."
      · subst hdot
        rw [List.filter_cons_of_neg (by simp)] at hnames hdirectories ⊢
        have hbase := hdirectories [] List.nil_prefix
        rw [List.append_nil] at hbase
        exact .here hbase (ih hnames hdirectories)
      · rw [List.filter_cons_of_pos (by simpa using hdot)] at hnames hdirectories ⊢
        have hfirst := hdirectories [name] (List.cons_prefix_cons.mpr ⟨rfl, List.nil_prefix⟩)
        have hbelow : ∀ passed, passed <+: rest.filter (· ≠ ".") →
            root.kindAt (base ++ [name] ++ passed) = some .directory := by
          intro passed hp
          rw [List.append_assoc]
          exact hdirectories ([name] ++ passed) (List.cons_prefix_cons.mpr ⟨rfl, hp⟩)
        have hrest := ih (fun n hn => hnames n (List.mem_cons_of_mem _ hn)) hbelow
        rw [List.append_assoc] at hrest
        exact .down (hnames name List.mem_cons_self) hfirst (by simp) (by simp) hrest

theorem kindAt_append {root node : Node} {base : Location} (h : root.get? base = some node)
    (location : Location) : root.kindAt (base ++ location) = node.kindAt location := by
  rw [kindAt, Node.get?_append, h, Option.bind_some]
  rfl

/-- A file system in which the node at a base has other nodes below it, and none has lost its
kind. -/
theorem keeps_placeAt {fs : FileSystem} {base : Location} {node node' : Node}
    (h : fs.root.get? base = some node)
    (hkeep : ∀ l kind, node.kindAt l = some kind → node'.kindAt l = some kind) (l : Location)
    (kind : Node.Kind) (hk : fs.root.kindAt l = some kind) :
    (fs.placeAt base node').root.kindAt l = some kind := by
  by_cases hp : base <+: l
  · obtain ⟨rest, rfl⟩ := hp
    rw [kindAt_append h] at hk
    have hbase := Node.get?_place h node' []
    rw [List.append_nil, Node.get?_nil] at hbase
    rw [placeAt, kindAt_append hbase]
    exact hkeep rest kind hk
  · rw [placeAt, Node.kindAt_place hp]
    exact hk

section
variable {fs : FileSystem} {path : String} {base trail : Location} {node : Node}

theorem Descends.keep (h : Descends fs path base trail) (hbase : fs.root.get? base = some node)
    {node' : Node} (hkeep : ∀ l kind, node.kindAt l = some kind → node'.kindAt l = some kind) :
    Descends (fs.placeAt base node') path base trail where
  leads := by
    obtain ⟨front, rest, links, hnames, htrail, hleads⟩ := h.leads
    exact ⟨front, rest, links, hnames, htrail, hleads.keep (keeps_placeAt hbase hkeep)⟩
  entryNames := h.entryNames

theorem Descends.leads_to (h : Descends fs path base trail)
    (hbase : fs.root.get? base = some node)
    (hdirectories : ∀ passed, passed <+: trail → node.kindAt passed = some .directory) :
    ∃ links, Leads (fun _ => False) fs.root linkLimit (fs.startOf path) (Path.names path) links
      (base ++ trail) := by
  obtain ⟨front, rest, links, hnames, rfl, hleads⟩ := h.leads
  refine ⟨links, ?_⟩
  rw [hnames]
  refine hleads.append (leads_along h.entryNames fun passed hp => ?_)
  rw [kindAt_append hbase]
  exact hdirectories passed hp

theorem Descends.parent {parent name last : String} (h : Descends fs path base (trail ++ [last]))
    (hc : Path.Continues path parent name) : Descends fs parent base trail := by
  obtain ⟨front, rest, links, hnames, htrail, hleads⟩ := h.leads
  have hstart : fs.startOf parent = fs.startOf path := by
    rw [startOf, startOf, hc.absolute]
  have hsteps : Path.steps parent = front.filter (· ≠ ".") ++ trail := by
    have hpath : Path.steps path = front.filter (· ≠ ".") ++ trail ++ [last] := by
      rw [Path.steps, hnames, List.filter_append, htrail, List.append_assoc]
    rw [hc.steps_eq] at hpath
    exact (List.append_inj' hpath rfl).1
  have hprefix : Path.names parent <+: front ++ rest := by
    obtain ⟨before, after, hall, -⟩ := hc.names
    rw [← hnames, hall, List.append_assoc]
    exact List.prefix_append _ _
  refine ⟨?_, fun n hn => h.entryNames n (List.mem_append_left _ hn)⟩
  rw [hstart]
  rcases List.prefix_or_prefix_of_prefix hprefix (List.prefix_append front rest) with hp | hp
  · -- The parent is above the base: only dots come between them, and the trail has no other name.
    obtain ⟨dots, rfl⟩ := hp
    rw [List.filter_append, Path.steps, List.append_assoc] at hsteps
    obtain ⟨hdots, rfl⟩ := List.append_eq_nil_iff.mp (List.self_eq_append_right.mp hsteps)
    have hbase := hleads.without_dots
    rw [hdots, List.append_nil] at hbase
    exact ⟨Path.names parent, [], links, (List.append_nil _).symm, rfl, hbase⟩
  · obtain ⟨more, hmore⟩ := hp
    refine ⟨front, more, links, hmore.symm, ?_, hleads⟩
    rw [Path.steps, ← hmore, List.filter_append] at hsteps
    exact List.append_cancel_left hsteps

variable {name : String} {entries : Entries}

theorem Descends.steps_ne_nil (h : Descends fs path base (trail ++ [name])) :
    Path.steps path ≠ [] := by
  obtain ⟨front, rest, links, hnames, htrail, -⟩ := h.leads
  rw [Path.steps, hnames, List.filter_append, htrail]
  simp

theorem Descends.ne_empty (h : Descends fs path base trail) (hne : trail ≠ []) : path ≠ "" := by
  rintro rfl
  obtain ⟨front, rest, links, hnames, rfl, -⟩ := h.leads
  obtain ⟨-, rfl⟩ := List.append_eq_nil_iff.mp hnames.symm
  exact hne rfl

/-- The last name of a path is looked up in the directory that the trail before it leads to. -/
theorem Descends.lookup_last (h : Descends fs path base (trail ++ [name])) (hu : IsUsable path)
    (ht : Path.Trimmed path) (hbase : fs.root.get? base = some node)
    (hdirectories : ∀ passed, passed <+: trail → node.kindAt passed = some .directory)
    (follow : Bool) : Path.endsInSlash path = false ∧ ∃ links, fs.lookup follow path =
      walk fs.root follow links (base ++ trail) [name] := by
  obtain ⟨front, rest, links, hnames, htrail, hleads⟩ := h.leads
  obtain ⟨hslash, first, last, hlast, hdot⟩ := ht.resolve_left h.steps_ne_nil
  have hne : rest ≠ [] := by
    rintro rfl
    simp at htrail
  -- The path ends in a name, so the rest does.
  obtain ⟨passed, rfl⟩ : ∃ passed, rest = passed ++ [last] := by
    rw [hlast] at hnames
    have hend := congrArg List.getLast? hnames
    rw [List.getLast?_concat, List.getLast?_append, List.getLast?_eq_some_getLast hne,
      Option.some_or] at hend
    obtain ⟨passed, hpassed⟩ := List.getLast?_eq_some_iff.mp
      ((List.getLast?_eq_some_getLast hne).trans hend.symm)
    exact ⟨passed, hpassed⟩
  rw [List.filter_append, List.filter_cons_of_pos (by simpa using hdot), List.filter_nil] at htrail
  obtain ⟨rfl, hname⟩ := List.append_inj' htrail rfl
  obtain rfl : last = name := by simpa using hname
  have hdown : Leads (fun _ => False) fs.root links base passed links
      (base ++ passed.filter (· ≠ ".")) := by
    refine leads_along (fun n hn => h.entryNames n (List.mem_append_left _ hn)) fun more hp => ?_
    rw [kindAt_append hbase]
    exact hdirectories more hp
  refine ⟨hslash, links, ?_⟩
  rw [lookup_eq_walk hu hslash, hnames, hleads.walk_append (.inl (by simp)),
    hdown.walk_append (.inl (by simp))]

theorem Descends.isEntryName_last (h : Descends fs path base (trail ++ [name])) :
    IsEntryName name :=
  h.entryNames name (by simp)

theorem get?_trail (hbase : fs.root.get? base = some node)
    (hd : node.get? trail = some (.directory entries)) :
    fs.root.get? (base ++ trail) = some (.directory entries) := by
  rw [Node.get?_append, hbase, Option.bind_some, hd]

theorem Descends.lookup_absent (h : Descends fs path base (trail ++ [name])) (hu : IsUsable path)
    (ht : Path.Trimmed path) (hbase : fs.root.get? base = some node)
    (hdirectories : ∀ passed, passed <+: trail → node.kindAt passed = some .directory)
    (hmissing : node.kindAt (trail ++ [name]) = none) (follow : Bool) :
    fs.lookup follow path = .ok (.absent (base ++ (trail ++ [name]))) := by
  obtain ⟨-, links, hlookup⟩ := h.lookup_last hu ht hbase hdirectories follow
  obtain ⟨entries, hd⟩ := get?_of_kindAt (hdirectories trail List.prefix_rfl)
  have hnone : entries.find? name = none := by
    rw [kindAt, Node.get?_concat hd, Option.map_eq_none_iff] at hmissing
    exact hmissing
  rw [hlookup, walk_missing (get?_trail hbase hd) h.isEntryName_last hnone, List.append_assoc]
  rfl

theorem Descends.lookup_file (h : Descends fs path base (trail ++ [name])) (hu : IsUsable path)
    (ht : Path.Trimmed path) (hbase : fs.root.get? base = some node)
    (hdirectories : ∀ passed, passed <+: trail → node.kindAt passed = some .directory)
    {contents : Bytes} {executable : Bool}
    (hfile : node.get? (trail ++ [name]) = some (.file contents executable)) (follow : Bool) :
    fs.lookup follow path =
      .ok (.present (base ++ (trail ++ [name])) (.file contents executable)) := by
  obtain ⟨-, links, hlookup⟩ := h.lookup_last hu ht hbase hdirectories follow
  obtain ⟨entries, hd⟩ := get?_of_kindAt (hdirectories trail List.prefix_rfl)
  have hfind : entries.find? name = some (.file contents executable) := by
    rw [← Node.get?_concat hd, hfile]
  rw [hlookup, walk_down (get?_trail hbase hd) h.isEntryName_last hfind (by simp), walk_nil,
    Node.get?_concat (get?_trail hbase hd), hfind, List.append_assoc]

/-- The first name that is missing on a trail. -/
theorem exists_first_missing {node : Node} {trail : Location} (h : node.Open trail)
    (hmissing : node.kindAt trail = none) :
    ∃ passed name more, trail = passed ++ name :: more ∧
      node.kindAt passed = some .directory ∧ node.kindAt (passed ++ [name]) = none := by
  induction trail using List.reverseRecOn with
  | nil =>
      rw [Node.kindAt_nil] at hmissing
      cases hmissing
  | append_singleton trail name ih =>
      have hopen := h.of_prefix (List.prefix_append trail [name])
      cases hkind : node.kindAt trail with
      | some kind =>
          obtain rfl := hopen trail List.prefix_rfl kind hkind
          exact ⟨trail, name, [], rfl, hkind, hmissing⟩
      | none =>
          obtain ⟨passed, first, more, rfl, hpassed, hfirst⟩ := ih hopen hkind
          exact ⟨passed, first, more ++ [name], by simp, hpassed, hfirst⟩

theorem directories_above {node : Node} {trail : Location} (h : node.Open trail)
    (hd : node.kindAt trail = some .directory) :
    ∀ passed, passed <+: trail → node.kindAt passed = some .directory := by
  rintro passed ⟨more, rfl⟩
  cases hkind : node.kindAt passed with
  | some kind => rw [h passed (List.prefix_append _ _) kind hkind]
  | none =>
      have hnone : node.get? passed = none := Option.map_eq_none_iff.mp hkind
      rw [kindAt, Node.get?_append, hnone] at hd
      cases hd

theorem Descends.lookup_missing (h : Descends fs path base (trail ++ [name])) (hu : IsUsable path)
    (ht : Path.Trimmed path) (hbase : fs.root.get? base = some node) (hopen : node.Open trail)
    (hmissing : node.kindAt trail = none) (follow : Bool) :
    fs.lookup follow path = .error .missing := by
  obtain ⟨passed, first, more, rfl, hpassed, hfirst⟩ := exists_first_missing hopen hmissing
  obtain ⟨front, rest, links, hnames, htrail, hleads⟩ := h.leads
  obtain ⟨hslash, -⟩ := ht.resolve_left h.steps_ne_nil
  -- The names up to the first that is missing, and those behind it.
  obtain ⟨before, behind, rfl, hbefore, hbehind⟩ : ∃ before behind,
      rest = before ++ first :: behind ∧ before.filter (· ≠ ".") = passed ∧ behind ≠ [] := by
    rw [List.append_assoc, List.cons_append] at htrail
    obtain ⟨rest₁, rest₂, rfl, hrest₁, hrest₂⟩ := List.filter_eq_append_iff.mp htrail
    obtain ⟨dots, behind, rfl, hdots, -, hbehind⟩ := List.filter_eq_cons_iff.mp hrest₂
    refine ⟨rest₁ ++ dots, behind, by simp, ?_, ?_⟩
    · rw [List.filter_append, hrest₁, List.filter_eq_nil_iff.mpr hdots, List.append_nil]
    · rintro rfl
      simp at hbehind
  have hentry : ∀ n ∈ before.filter (· ≠ "."), IsEntryName n := by
    intro n hn
    rw [hbefore] at hn
    exact h.entryNames n (by simp [hn])
  have hdown : Leads (fun _ => False) fs.root links base before links
      (base ++ before.filter (· ≠ ".")) := by
    refine leads_along hentry fun n hp => ?_
    rw [hbefore] at hp
    rw [kindAt_append hbase]
    exact directories_above (hopen.of_prefix (List.prefix_append _ _)) hpassed n hp
  rw [hbefore] at hdown
  obtain ⟨entries, hd⟩ := get?_of_kindAt hpassed
  have hnone : entries.find? first = none := by
    rw [kindAt, Node.get?_concat hd, Option.map_eq_none_iff] at hfirst
    exact hfirst
  rw [lookup_eq_walk hu hslash, hnames, hleads.walk_append (.inl (by simp)),
    hdown.walk_append (.inl (by simp)),
    walk_missing (get?_trail hbase hd) (h.entryNames first (by simp)) hnone, if_neg (by
      simpa using hbehind)]

theorem length_lt_of_parent? {path parent name : String} (hp : Path.parent? path = some parent)
    (hc : Path.Continues path parent name) : parent.length < path.length := by
  have hfront := (Path.isFront_parent? hp).chars
  have hle := hfront.length_le
  rw [String.length_toList, String.length_toList] at hle
  refine Nat.lt_of_le_of_ne hle fun hlength => ?_
  have hsame : parent = path := by
    rw [← String.toList_inj]
    exact hfront.eq_of_length (by rwa [String.length_toList, String.length_toList])
  have hsteps := hc.steps_eq
  rw [hsame] at hsteps
  simp at hsteps

theorem IsUsable.of_prefix {front path : String} (h : IsUsable path)
    (hp : front.toList <+: path.toList) (hne : front ≠ "") : IsUsable front := by
  obtain ⟨rest, hrest⟩ := hp
  have hpath : path = front ++ String.ofList rest := by
    rw [← String.toList_inj, String.toList_append, String.toList_ofList, hrest]
  refine ⟨fun hnul => h.nul ?_, hne, Nat.lt_of_le_of_lt ?_ h.size⟩
  · rw [← hrest]
    exact List.mem_append_left _ hnul
  · rw [hpath, String.utf8ByteSize_append]
    exact Nat.le_add_right _ _

/-- The missing directories along a trail are made. -/
theorem Descends.makeDirectoriesWithin (h : Descends fs path base trail) (hu : IsUsable path)
    (ht : Path.Trimmed path) (hbase : fs.root.get? base = some node) (hopen : node.Open trail)
    {fuel : Nat} (hfuel : path.length ≤ fuel) :
    fs.makeDirectoriesWithin fuel path = (fs.placeAt base (node.grow trail), .ok ()) := by
  have hpresent {path trail} (h : Descends fs path base trail) (hu : IsUsable path)
      (hopen : node.Open trail) (hd : node.kindAt trail = some .directory) (fuel : Nat) :
      fs.makeDirectoriesWithin fuel path = (fs.placeAt base (node.grow trail), .ok ()) := by
    obtain ⟨links, hleads⟩ := h.leads_to hbase (directories_above hopen hd)
    obtain ⟨hdirectory, place, hlookup, hfound⟩ := isDirectory_of_leads hu hleads
      ((kindAt_append hbase trail).trans hd)
    rw [makeDirectoriesWithin_of_present hdirectory hlookup hfound,
      Node.grow_of_directory hopen hd, placeAt, Node.place_of_get? hbase]
  -- From the end of the trail up to the first directory that is there.
  induction trail using List.reverseRecOn generalizing path fuel with
  | nil =>
      have hd := hopen [] List.nil_prefix node.kind (Node.kindAt_nil node)
      exact hpresent h hu hopen (by rw [Node.kindAt_nil, hd]) fuel
  | append_singleton trail name ih =>
      have habove := hopen.of_prefix (List.prefix_append trail [name])
      cases hlast : node.kindAt (trail ++ [name]) with
      | some kind =>
          obtain rfl := hopen _ List.prefix_rfl kind hlast
          exact hpresent h hu hopen hlast fuel
      | none =>
          cases htrail : node.kindAt trail with
          | some kind =>
              obtain rfl := habove _ List.prefix_rfl kind htrail
              have hlookup := h.lookup_absent hu ht hbase (directories_above habove htrail) hlast
                false
              rw [makeDirectoriesWithin_of_absent hlookup, Node.grow_concat hopen hlast,
                Node.grow_of_directory habove htrail, placeAt, placeAt, Node.place_append hbase]
          | none =>
              have hne : trail ≠ [] := by
                rintro rfl
                rw [Node.kindAt_nil] at htrail
                cases htrail
              obtain ⟨parent, last, hparent, hc⟩ := Path.exists_parent? h.steps_ne_nil
              have hdescends := h.parent hc
              have hparent_ne : parent ≠ "" := by
                rintro rfl
                exact hdescends.ne_empty hne rfl
              have hlt := length_lt_of_parent? hparent hc
              obtain ⟨fuel, rfl⟩ : ∃ more, fuel = more + 1 := ⟨fuel - 1, by omega⟩
              have hle : parent.length ≤ fuel := by omega
              have hmade := ih hdescends (hu.of_prefix (Path.isFront_parent? hparent).chars hparent_ne)
                hc.trimmed habove hle
              have hmissing : fs.makeDirectory path = .error .missing := by
                rw [makeDirectory_eq, h.lookup_missing hu ht hbase habove htrail false]
              -- The last directory is absent once the others are made.
              have hgrown := Node.get?_place hbase (node.grow trail) []
              rw [List.append_nil, Node.get?_nil] at hgrown
              have hnone : (node.grow trail).kindAt (trail ++ [name]) = none := by
                rw [kindAt, Node.get?_grow habove fun hp => absurd hp.length_le (by simp)]
                exact hlast
              have hlookup := (h.keep hbase fun l kind => Node.kindAt_grow_of_some habove).lookup_absent
                hu ht hgrown (fun passed hp => Node.kindAt_grow habove hp) hnone false
              have hempty : path.isEmpty = false := by simpa using hu.nonempty
              have hensure := ensureDirectory_of_absent hlookup
              rw [FileSystem.makeDirectoriesWithin, hempty, hmissing, hparent]
              simp only [hmade, hensure, Bool.false_eq_true, if_false]
              rw [Node.grow_concat hopen hlast, placeAt, placeAt, placeAt,
                Node.place_append hgrown, Node.place_place hbase]

/-- A file is put at the end of a trail, once the directories above it are made. -/
theorem Descends.put {parent last : String} (h : Descends fs path base trail) (hu : IsUsable path)
    (ht : Path.Trimmed path) (hbase : fs.root.get? base = some node) (hadmits : node.Admits trail)
    (hp : Path.parent? path = some parent) (hc : Path.Continues path parent last)
    (hne : parent ≠ "") (contents : Bytes) :
    ∃ made, fs.makeDirectories parent = (made, .ok ()) ∧
      made.write path contents = .ok (fs.placeAt base (node.put trail contents)) := by
  obtain ⟨above, name, rfl, hopen⟩ := hadmits.exists_concat
  have hmade := (h.parent hc).makeDirectoriesWithin (hu.of_prefix (Path.isFront_parent? hp).chars hne)
    hc.trimmed hbase hopen (Nat.le_refl _)
  refine ⟨_, hmade, ?_⟩
  have hgrown := Node.get?_place hbase (node.grow above) []
  rw [List.append_nil, Node.get?_nil] at hgrown
  have hdescends := h.keep hbase fun l kind => Node.kindAt_grow_of_some hopen
  have hdirectories : ∀ passed, passed <+: above →
      (node.grow above).kindAt passed = some .directory :=
    fun passed hpassed => Node.kindAt_grow hopen hpassed
  have hsame : (node.grow above).get? (above ++ [name]) = node.get? (above ++ [name]) :=
    Node.get?_grow hopen fun hle => absurd hle.length_le (by simp)
  have hplace (new : Node) : (fs.placeAt base (node.grow above)).placeAt
      (base ++ (above ++ [name])) new =
        fs.placeAt base ((node.grow above).place (above ++ [name]) new) := by
    rw [placeAt, placeAt, placeAt, Node.place_append hgrown, Node.place_place hbase]
  obtain ⟨hslash, -⟩ := hdescends.lookup_last hu ht hgrown hdirectories true
  rw [Node.put, List.dropLast_concat, write_eq]
  cases hget : node.get? (above ++ [name]) with
  | none =>
      have hmissing : (node.grow above).kindAt (above ++ [name]) = none := by
        rw [kindAt, hsame, hget, Option.map_none]
      have hexecutable : node.executableAt (above ++ [name]) = false := by
        rw [Node.executableAt, hget]
      rw [hdescends.lookup_absent hu ht hgrown hdirectories hmissing true, hslash, hexecutable]
      simp only [Bool.false_eq_true, if_false, hplace]
  | some old =>
      have hkind := hadmits.self old.kind (kindAt_of_get? hget)
      cases old with
      | link target => cases hkind
      | directory entries => cases hkind
      | file before executable =>
          have hexecutable : node.executableAt (above ++ [name]) = executable := by
            rw [Node.executableAt, hget]
          rw [hdescends.lookup_file hu ht hgrown hdirectories (hsame.trans hget) true,
            hexecutable]
          simp only [hplace]

end

end BuildMatrix.FileSystem
