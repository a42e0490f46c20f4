import BuildMatrix.Proofs.Cache.Packing
import BuildMatrix.Proofs.Cache.Payload

/-!
# Archives that are restored

Restoring the archive of a tree puts each of its files below the directory and changes nothing
beside them. If nothing was there, the directory has the files of the tree afterwards, and packing
it gives the archive again.
-/

namespace BuildMatrix

open FileSystem

namespace Node

def Vacant (node : Node) (location : Location) : Prop :=
  ∀ below, below ≠ [] → node.kindAt (location ++ below) = none

theorem vacant_of_empty {node : Node} {location : Location}
    (h : node.get? location = some (directory .nil)) : node.Vacant location := by
  intro below hne
  rw [kindAt_append h, kindAt_nil_directory below hne]

/-- The files of a tree are put below a location: they are there, directories stand above them, and
all that is beside them is as before. -/
structure Overlaid (tree : Node) (location : Location) (before after : Node) : Prop where
  there : ∀ below contents, tree.contentsAt below = some contents →
    after.get? (location ++ below) =
      some (.file contents (before.executableAt (location ++ below)))
  above : ∀ below contents, tree.contentsAt below = some contents →
    ∀ other, other <+: location ++ below → other ≠ location ++ below →
      after.kindAt other = some .directory
  beside : ∀ other, (∀ below contents, tree.contentsAt below = some contents →
    Apart (location ++ below) other) → after.get? other = before.get? other

section
variable {node : Node} {location below : Location}

theorem Vacant.admits (h : node.Vacant location) (hopen : node.Open location) (hne : below ≠ []) :
    node.Admits (location ++ below) where
  ne_nil := by simp [hne]
  above other hp kind hkind := by
    rw [List.dropLast_append_of_ne_nil hne] at hp
    rcases List.prefix_or_prefix_of_prefix hp (List.prefix_append location below.dropLast) with
      hle | ⟨more, rfl⟩
    · exact hopen other hle kind hkind
    · by_cases hmore : more = []
      · rw [hmore, List.append_nil] at hkind
        exact hopen location List.prefix_rfl kind hkind
      · rw [h more hmore] at hkind
        cases hkind
  self kind hkind := by
    rw [h below hne] at hkind
    cases hkind

/-- The files of a directory fit where nothing stands. -/
theorem Vacant.admits_contents (h : node.Vacant location) (hopen : node.Open location)
    (tree : Entries) (below : Location) (contents : Bytes)
    (hbelow : (directory tree).contentsAt below = some contents) :
    node.Admits (location ++ below) := by
  refine h.admits hopen ?_
  rintro rfl
  cases hbelow

theorem contentsAt_of_kindAt_ne {node : Node} {location : Location}
    (h : node.kindAt location ≠ some .file) : node.contentsAt location = none := by
  rw [Option.eq_none_iff_forall_ne_some]
  intro contents hcontents
  obtain ⟨executable, hget⟩ := contentsAt_eq_some.mp hcontents
  exact h (kindAt_of_get? hget)

theorem Vacant.contentsAt_eq_none (h : node.Vacant location) (hopen : node.Open location)
    (below : Location) : node.contentsAt (location ++ below) = none := by
  refine contentsAt_of_kindAt_ne fun hkind => ?_
  by_cases hne : below = []
  · rw [hne, List.append_nil] at hkind
    cases hopen location List.prefix_rfl _ hkind
  · rw [h below hne] at hkind
    cases hkind

/-- Where no files were there are those of the tree. -/
theorem Overlaid.contentsAt_eq {tree before after : Node}
    (h : Overlaid tree location before after)
    (hnone : ∀ below, before.contentsAt (location ++ below) = none) (below : Location) :
    after.contentsAt (location ++ below) = tree.contentsAt below := by
  cases hbelow : tree.contentsAt below with
  | some contents => exact contentsAt_eq_some.mpr ⟨_, h.there below contents hbelow⟩
  | none =>
      by_cases happart : ∀ other contents, tree.contentsAt other = some contents →
          Apart (location ++ other) (location ++ below)
      · have hsame := h.beside _ happart
        rw [contentsAt, hsame]
        exact hnone below
      · -- A file of the tree is above or below.
        simp only [not_forall] at happart
        obtain ⟨other, contents, hother, hcomparable⟩ := happart
        have hne : below ≠ other := by
          rintro rfl
          rw [hother] at hbelow
          cases hbelow
        by_cases hp : location ++ below <+: location ++ other
        · refine contentsAt_of_kindAt_ne ?_
          rw [h.above other contents hother _ hp fun heq => hne (List.append_cancel_left heq)]
          simp
        · obtain ⟨rest, hrest⟩ : location ++ other <+: location ++ below := by
            by_contra hp'
            exact hcomparable ⟨hp', hp⟩
          rw [contentsAt, ← hrest, get?_append, h.there other contents hother, Option.bind_some]
          cases rest with
          | nil =>
              rw [List.append_nil] at hrest
              exact absurd (List.append_cancel_left hrest).symm hne
          | cons name rest => rfl

theorem Overlaid.exists_file {tree before after : Node} {other : Location}
    (h : Overlaid tree location before after) (hnone : before.get? (location ++ other) = none)
    (hsome : after.get? (location ++ other) ≠ none) :
    ∃ below contents, tree.contentsAt below = some contents ∧ other <+: below := by
  by_contra hnot
  refine hsome ((h.beside _ fun below contents hbelow => ?_).trans hnone)
  have habove : ¬location ++ other <+: location ++ below := fun hp =>
    hnot ⟨below, contents, hbelow, (List.prefix_append_right_inj location).mp hp⟩
  refine ⟨?_, habove⟩
  rintro ⟨rest, hrest⟩
  rw [← hrest, get?_append, h.there below contents hbelow, Option.bind_some] at hsome
  cases rest with
  | nil =>
      rw [List.append_nil] at hrest
      exact habove (hrest ▸ List.prefix_rfl)
  | cons name rest => exact hsome rfl

theorem IsTree.putAll {files : List (Location × Bytes)}
    (hfiles : ∀ file ∈ files, ∀ name ∈ file.1, IsName name ∧ IsEntryName name)
    (ht : node.IsTree) : (node.putAll files).IsTree := by
  induction files generalizing node with
  | nil => exact ht
  | cons file rest ih =>
      exact ih (fun other hother => hfiles other (List.mem_cons_of_mem _ hother))
        (ht.put (hfiles file List.mem_cons_self) file.2)

end

end Node

theorem FileSystem.Reaches.isName {fs : FileSystem} {path : String} {location : Location}
    (h : Reaches fs path location) (ht : fs.root.IsTree) :
    ∀ name ∈ location, IsName name ∧ IsEntryName name := by
  obtain ⟨base, trail, rfl, hbase, ⟨front, rest, links, hnames, rfl, -⟩, hentries⟩ := h.descends
  obtain ⟨entries, hget⟩ := get?_of_kindAt hbase
  intro name hname
  rcases List.mem_append.mp hname with hname | hname
  · exact ht.names hget name hname
  · have hentry := hentries name hname
    have hmem : name ∈ Path.names path := by
      rw [hnames]
      exact List.mem_append_right _ (List.mem_filter.mp hname).1
    exact ⟨Path.isName_of_mem_names hmem hentry.1 hentry.2.1, hentry⟩

namespace Archive

open Node

/-- A file of an archive can be restored below a directory: its path consists of names, is not too
long, and leads to where a file can be put. -/
structure Fits (fs : FileSystem) (directory : String) (location : Location)
    (file : ArchivedFile) : Prop where
  path_eq : file.path = Text.joinWith "/" (Path.names file.path)
  ne_nil : Path.names file.path ≠ []
  names : ∀ name ∈ Path.names file.path, IsName name ∧ IsEntryName name
  usable : IsUsable (Path.join directory file.path)
  admits : fs.root.Admits (location ++ Path.names file.path)

def placed (location : Location) (file : ArchivedFile) : Location × Bytes :=
  (location ++ Path.names file.path, file.contents)

section
variable {fs : FileSystem} {directory : String} {location : Location} {file : ArchivedFile}

theorem restoreFile_eq (h : Reaches fs directory location) (hf : Fits fs directory location file) :
    restoreFile fs directory file =
      ({ fs with root := fs.root.put (location ++ Path.names file.path) file.contents }, .ok ()) := by
  have hcontained : Path.isContained file.path := by
    rw [hf.path_eq]
    exact Path.isContained_joinWith hf.ne_nil fun name hname => (hf.names name hname).1
  have husable := hf.usable
  rw [hf.path_eq] at husable
  obtain ⟨made, hmade, hwritten⟩ :=
    h.write_below hf.names hf.ne_nil husable hf.admits file.contents
  rw [← hf.path_eq] at hmade hwritten
  simp only [restoreFile, hcontained, hmade, hwritten, Bool.not_true, Bool.false_eq_true, if_false]

theorem isUsable_of_restoreFile {restored : FileSystem}
    (h : restoreFile fs directory file = (restored, .ok ())) :
    IsUsable (Path.join directory file.path) := by
  unfold restoreFile at h
  split at h
  · cases h
  simp only at h
  split at h
  · cases h
  · split at h
    · next hwritten =>
        obtain ⟨place, executable, hlookup, -⟩ := write_ok hwritten
        exact isUsable_of_lookup hlookup
    · cases h

theorem isUsable_of_restoreFiles {restored : FileSystem} {files : List ArchivedFile}
    (h : restoreFiles fs directory files = (restored, .ok ())) :
    ∀ file ∈ files, IsUsable (Path.join directory file.path) := by
  induction files generalizing fs with
  | nil => simp
  | cons first rest ih =>
      unfold restoreFiles at h
      split at h
      · next hfirst =>
          intro other hother
          rcases List.mem_cons.mp hother with rfl | hother
          · exact isUsable_of_restoreFile hfirst
          · exact ih h other hother
      · next hfailed => exact absurd h (hfailed restored)

/-- Files none of which is above another are restored one after the other. -/
theorem restoreFiles_eq {files : List ArchivedFile} (h : Reaches fs directory location)
    (hfits : ∀ file ∈ files, Fits fs directory location file)
    (hapart : (files.map (placed location)).Pairwise fun a b => Apart a.1 b.1) :
    restoreFiles fs directory files =
        ({ fs with root := fs.root.putAll (files.map (placed location)) }, .ok ()) ∧
      Reaches { fs with root := fs.root.putAll (files.map (placed location)) } directory
        location := by
  induction files generalizing fs with
  | nil => exact ⟨rfl, h⟩
  | cons file rest ih =>
      obtain ⟨hfirst, hrest⟩ := List.pairwise_cons.mp hapart
      have hfile := hfits file List.mem_cons_self
      have hput := h.put hfile.admits hfile.ne_nil file.contents
      obtain ⟨hrestored, hreaches⟩ := ih hput (fun other hother => by
        have hfits := hfits other (List.mem_cons_of_mem _ hother)
        exact { hfits with
          admits := hfits.admits.put hfile.admits
            (hfirst (placed location other) (List.mem_map_of_mem hother)) _ }) hrest
      rw [restoreFiles, restoreFile_eq h hfile]
      exact ⟨hrestored, hreaches⟩

end

theorem restore_encode (fs : FileSystem) (directory : String) (archive : Archive) :
    restore fs directory archive.encode =
      match restoreFiles fs directory archive.files with
      | (restored, .ok ()) => (restored, .ok archive.files.length)
      | (restored, .error e) => (restored, .error e) := by
  have hempty : archive.encode.isEmpty = false := by simpa using encode_ne_nil archive
  rw [restore, hempty, decode?_encode]
  rfl

section
variable {fs : FileSystem} {directory : String} {location : Location} {tree : Entries}
  (ht : tree.IsTree)
include ht

theorem contentsAt_names {file : ArchivedFile} (hfile : file ∈ (ofNode (.directory tree)).files) :
    (Node.directory tree).contentsAt (Path.names file.path) = some file.contents ∧
      file.path = Text.joinWith "/" (Path.names file.path) := by
  obtain ⟨below, hbelow, hpath⟩ := (mem_ofNode ht).mp hfile
  have hnames := names_of_contentsAt ht hbelow
  rw [← hpath] at hnames
  rw [hnames]
  exact ⟨hbelow, hpath⟩

/-- The archive of a tree is restored to where its files fit. -/
theorem restore_ofNode (h : Reaches fs directory location)
    (husable : ∀ below contents, (Node.directory tree).contentsAt below = some contents →
      IsUsable (Path.join directory (Text.joinWith "/" below)))
    (hadmits : ∀ below contents, (Node.directory tree).contentsAt below = some contents →
      fs.root.Admits (location ++ below)) :
    ∃ root, restore fs directory (ofNode (.directory tree)).encode =
        ({ fs with root := root }, .ok tree.fileCount) ∧
      Overlaid (.directory tree) location fs.root root ∧
      Reaches { fs with root := root } directory location ∧ (fs.root.IsTree → root.IsTree) := by
  have hfits : ∀ file ∈ (ofNode (.directory tree)).files, Fits fs directory location file := by
    intro file hfile
    obtain ⟨hcontents, hpath⟩ := contentsAt_names ht hfile
    obtain ⟨executable, hget⟩ := contentsAt_eq_some.mp hcontents
    have hall : (Node.directory tree).IsTree := ht
    refine ⟨hpath, ?_, hall.names hget, ?_, hadmits _ _ hcontents⟩
    · intro hnil
      rw [hnil] at hget
      cases hget
    · rw [hpath]
      exact husable _ _ hcontents
  have hapart : ((ofNode (.directory tree)).files.map (placed location)).Pairwise
      fun a b => Node.Apart a.1 b.1 := by
    refine List.pairwise_map.mpr ((distinct_ofNode ht).imp_of_mem ?_)
    intro a b ha hb hne
    obtain ⟨hcontents, hpath⟩ := contentsAt_names ht ha
    obtain ⟨hcontents', hpath'⟩ := contentsAt_names ht hb
    have happart := apart_of_contentsAt hcontents hcontents' fun heq => hne (by
      rw [hpath, hpath', heq])
    exact ⟨fun hp => happart.1 ((List.prefix_append_right_inj location).mp hp),
      fun hp => happart.2 ((List.prefix_append_right_inj location).mp hp)⟩
  obtain ⟨hrestored, hreaches⟩ := restoreFiles_eq h hfits hapart
  have hplaces : ∀ place ∈ (ofNode (.directory tree)).files.map (placed location),
      fs.root.Admits place.1 := by
    intro place hplace
    obtain ⟨file, hfile, rfl⟩ := List.mem_map.mp hplace
    exact (hfits file hfile).admits
  have hoverlays := overlays_putAll hplaces hapart
  have hplaced {below : Location} {contents : Bytes}
      (hbelow : (Node.directory tree).contentsAt below = some contents) :
      (location ++ below, contents) ∈ (ofNode (.directory tree)).files.map (placed location) := by
    refine List.mem_map.mpr ⟨⟨Text.joinWith "/" below, contents⟩,
      (mem_ofNode ht).mpr ⟨below, hbelow, rfl⟩, ?_⟩
    rw [placed, names_of_contentsAt ht hbelow]
  refine ⟨_, ?_, ⟨fun below contents hbelow => hoverlays.there _ (hplaced hbelow),
    fun below contents hbelow => hoverlays.above _ (hplaced hbelow), fun other hother => ?_⟩,
    hreaches, fun hroot => ?_⟩
  · rw [restore_encode, hrestored, length_ofNode]
  · refine hoverlays.beside other fun placed hplaced => ?_
    obtain ⟨file, hfile, rfl⟩ := List.mem_map.mp hplaced
    exact hother _ _ (contentsAt_names ht hfile).1
  · refine hroot.putAll fun placed hplaced name hname => ?_
    obtain ⟨file, hfile, rfl⟩ := List.mem_map.mp hplaced
    rcases List.mem_append.mp hname with hname | hname
    · exact h.isName hroot name hname
    · exact (hfits file hfile).names name hname

/-- What was put into an empty directory can be opened there. -/
theorem openable_restored {root : Node} {entries : Entries}
    (h : Reaches { fs with root := root } directory location)
    (husable : ∀ below contents, (Node.directory tree).contentsAt below = some contents →
      IsUsable (Path.join directory (Text.joinWith "/" below)))
    (hvacant : fs.root.Vacant location) (hover : Overlaid (.directory tree) location fs.root root)
    (hnode : FileSystem.node? { fs with root := root } directory = some (.directory entries))
    (htree : entries.IsTree) : (Node.directory entries).Openable directory := by
  intro other found hfound _
  by_cases hother : other = []
  · subst hother
    obtain ⟨_, hlookup⟩ := exists_lookup_of_node? hnode
    exact isUsable_of_lookup hlookup
  -- What is there was put there as a file or above one, whose path can be used.
  have hthere : root.get? (location ++ other) = some found := by
    rw [get?_append, h.get?_of_node? hnode, Option.bind_some, hfound]
  obtain ⟨below, contents, hbelow, rest, rfl⟩ := hover.exists_file
    (Option.map_eq_none_iff.mp (hvacant other hother)) (by simp [hthere])
  obtain ⟨executable, hfile⟩ := contentsAt_eq_some.mp hbelow
  have hall : (Node.directory entries).IsTree := htree
  have hfiles : (Node.directory tree).IsTree := ht
  have hnames := fun name hname => (hfiles.names hfile name hname).1
  have hne : other.foldl Path.join directory ≠ "" :=
    Path.foldl_join_ne_empty (fun name hname => (hall.names hfound name hname).1) h.nonempty
  have hu := husable _ _ hbelow
  rw [← Path.foldl_join (by simp [hother]) hnames, List.foldl_append] at hu
  exact hu.of_foldl_join hne fun name hname => hnames name (List.mem_append_right other hname)

/-- Where nothing was, the files of the tree are packed as the tree was. -/
theorem pack_restored {root : Node} (h : Reaches { fs with root := root } directory location)
    (husable : ∀ below contents, (Node.directory tree).contentsAt below = some contents →
      IsUsable (Path.join directory (Text.joinWith "/" below)))
    (hvacant : fs.root.Vacant location) (hover : Overlaid (.directory tree) location fs.root root)
    (hroot : root.IsTree)
    (hcontents : ∀ below, root.contentsAt (location ++ below) =
      (Node.directory tree).contentsAt below) :
    pack { fs with root := root } directory = .ok (ofNode (.directory tree)).encode := by
  by_cases hd : FileSystem.isDirectory { fs with root := root } directory
  · obtain ⟨entries, hnode⟩ := exists_node?_of_isDirectory hd
    have hget := h.get?_of_node? hnode
    have htree : entries.IsTree := IsTree.get? hroot hget
    have hsame : ofNode (.directory entries) = ofNode (.directory tree) := by
      refine ofNode_eq htree ht fun below => ?_
      rw [← hcontents below, contentsAt, contentsAt, get?_append, hget, Option.bind_some]
    rw [← hsame]
    exact (collects_pack hnode htree).collected
      (openable_restored ht h husable hvacant hover hnode htree)
  · -- If there was a file, the path would lead to the directory of the file.
    have hfiles : (ofNode (.directory tree)).files = [] := by
      refine List.eq_nil_iff_forall_not_mem.mpr fun file hfile => hd ?_
      obtain ⟨hbelow, -⟩ := contentsAt_names ht hfile
      have hne : location ≠ location ++ Path.names file.path := by
        intro heq
        rw [List.self_eq_append_right.mp heq] at hbelow
        cases hbelow
      have hdirectory := hover.above _ _ hbelow location (List.prefix_append _ _) hne
      obtain ⟨entries, hget⟩ := get?_of_kindAt hdirectory
      obtain ⟨executable, hfound⟩ := contentsAt_eq_some.mp hbelow
      have hall : (Node.directory tree).IsTree := ht
      have hrelative := Path.isAbsolute_joinWith fun name hname =>
        (hall.names hfound name hname).1
      have hu := (husable _ _ hbelow).of_join h.nonempty hrelative
      rw [FileSystem.isDirectory, h.node?_eq hu hget]
    have hempty : ofNode (.directory tree) = ⟨[]⟩ := congrArg Archive.mk hfiles
    rw [pack_of_not_isDirectory hd, hempty]

end

/-- The payload of a directory whose paths can be used, restored to an empty or missing directory or
to one in which all of its files fit: as many files are restored as the tree has, and they are put
over what was there. An empty directory then has exactly the files of the tree, and the same
payload. -/
theorem restore_pack {origin fs : FileSystem} {source target : String} {tree : Entries}
    {location : Location} (hsource : origin.node? source = some (.directory tree))
    (htree : tree.IsTree) (hopen : (Node.directory tree).Openable source) (hfs : fs.root.IsTree)
    (htarget : Reaches fs target location)
    (husable : ∀ below contents, (Node.directory tree).contentsAt below = some contents →
      IsUsable (Path.join target (Text.joinWith "/" below)))
    (hfits : fs.root.Vacant location ∨
      ∀ below contents, (Node.directory tree).contentsAt below = some contents →
        fs.root.Admits (location ++ below)) :
    ∃ payload, pack origin source = .ok payload ∧ ∃ restored : FileSystem,
      restore fs target payload = (restored, .ok tree.fileCount) ∧
      restored.workingDirectory = fs.workingDirectory ∧
      Overlaid (.directory tree) location fs.root restored.root ∧
      (fs.root.Vacant location →
        (∀ below, restored.root.contentsAt (location ++ below) =
          (Node.directory tree).contentsAt below) ∧
        pack restored target = .ok payload) := by
  have hadmits : ∀ below contents, (Node.directory tree).contentsAt below = some contents →
      fs.root.Admits (location ++ below) := by
    rcases hfits with hvacant | hadmits
    · exact hvacant.admits_contents htarget.isOpen tree
    · exact hadmits
  obtain ⟨root, hrestored, hover, hreaches, hroot⟩ :=
    restore_ofNode htree htarget husable hadmits
  refine ⟨_, (collects_pack hsource htree).collected hopen, _, hrestored, rfl, hover,
    fun hvacant => ?_⟩
  have hcontents := hover.contentsAt_eq (hvacant.contentsAt_eq_none htarget.isOpen)
  exact ⟨hcontents, pack_restored htree hreaches husable hvacant hover (hroot hfs) hcontents⟩

/-- Two files, one of them in a directory, a link to it, and an empty directory. -/
def wheels : Entries :=
  .cons "wheels" (.directory (.cons "six.whl" (.file [0x77] false) .nil)) <|
    .cons "selfcheck.json" (.file [0x7B, 0x7D] true) <|
      .cons "latest" (.link "wheels/six.whl") (.cons "empty" (.directory .nil) .nil)

def wheelHost : FileSystem :=
  ⟨.directory (.cons "a" (.directory wheels) (.cons "t" (.directory .nil) .nil)), []⟩

theorem isTree_wheels : wheels.IsTree := by decide +kernel

theorem isUsable_wheels (below : Location) (contents : Bytes)
    (h : (Node.directory wheels).contentsAt below = some contents) :
    IsUsable (Path.join "/t" (Text.joinWith "/" below)) := by
  have hentries : ∀ entry ∈ entriesDescendants [] wheels,
      IsUsable (Path.join "/t" (Text.joinWith "/" entry.1)) := by decide +kernel
  obtain ⟨executable, hget⟩ := contentsAt_eq_some.mp h
  have hne : below ≠ [] := by
    rintro rfl
    cases hget
  exact hentries (below, _)
    ((mem_entriesDescendants wheels [] isTree_wheels _ _).mpr ⟨below, hne, rfl, hget⟩)

theorem openable_wheels : (Node.directory wheels).Openable "/a" :=
  openable_of_descendants isTree_wheels (by decide) (by decide +kernel)

theorem restore_pack_wheels : ∃ payload, pack wheelHost "/a" = .ok payload ∧
    ∃ restored : FileSystem, restore wheelHost "/t" payload = (restored, .ok 2) ∧
      (∀ below, restored.root.contentsAt (["t"] ++ below) =
        (Node.directory wheels).contentsAt below) ∧
      pack restored "/t" = .ok payload := by
  have hlookup : wheelHost.lookup true "/t" = .ok (.present ["t"] (.directory .nil)) := rfl
  have hsource : wheelHost.node? "/a" = some (.directory wheels) := rfl
  have hvacant : wheelHost.root.Vacant ["t"] := vacant_of_empty rfl
  obtain ⟨payload, hpacked, restored, hrestored, -, -, hsame⟩ :=
    restore_pack hsource isTree_wheels openable_wheels (by decide +kernel)
      (reaches_of_lookup hlookup) isUsable_wheels (.inl hvacant)
  exact ⟨payload, hpacked, restored, hrestored, hsame hvacant⟩

/-- The names of a missing directory whose path is almost too long. -/
def deepLocation : Location := List.replicate 17 (letters 239)

theorem utf8ByteSize_deepLocation : (Path.ofLocation deepLocation).utf8ByteSize = 4080 := by
  have hslash : ("/" : String).utf8ByteSize = 1 := by decide
  have hcons : deepLocation = letters 239 :: List.replicate 16 (letters 239) := rfl
  rw [Path.ofLocation, String.utf8ByteSize_append, hslash, hcons, Text.utf8ByteSize_joinWith]
  simp [List.replicate_succ, utf8ByteSize_letters]

def shortTree : Entries := .cons "restored-file-01" (.file [0x31] false) .nil

def shortHost : FileSystem := ⟨.directory (.cons "a" (.directory shortTree) .nil), []⟩

theorem missing_letters :
    (Entries.cons "a" (.directory shortTree) .nil).find? (letters 239) = none := by
  have hne : "a" ≠ letters 239 := by
    intro heq
    have hn := utf8ByteSize_letters 239
    rw [← heq] at hn
    exact absurd hn (by decide)
  rw [Entries.find?_cons, if_neg hne, Entries.find?_nil]

theorem reaches_deepLocation :
    Reaches shortHost (Path.ofLocation deepLocation) deepLocation := by
  have hnames : ∀ name ∈ letters 239 :: List.replicate 16 (letters 239),
      IsName name ∧ IsEntryName name := by
    intro name hname
    have hname : name ∈ List.replicate 17 (letters 239) := hname
    rw [List.eq_of_mem_replicate hname]
    exact isName_long
  exact reaches_ofLocation rfl missing_letters hnames

theorem kindAt_deepLocation : shortHost.root.kindAt deepLocation = none := by
  have hcons : deepLocation = letters 239 :: List.replicate 16 (letters 239) := rfl
  rw [shortHost, hcons, kindAt_cons, missing_letters, Option.bind_none]

def shortPayload : Bytes := (Archive.mk [⟨"restored-file-01", [0x31]⟩]).encode

theorem pack_shortHost : pack shortHost "/a" = .ok shortPayload := by
  have hnode : shortHost.node? "/a" = some (.directory shortTree) := rfl
  have htree : shortTree.IsTree := by decide +kernel
  have hfiles : ofNode (.directory shortTree) = ⟨[⟨"restored-file-01", [0x31]⟩]⟩ := by
    decide +kernel
  rw [shortPayload, ← hfiles]
  exact (collects_pack hnode htree).collected
    (openable_of_descendants htree (by decide) (by decide +kernel))

theorem restore_deepLocation (count : Nat) :
    (restore shortHost (Path.ofLocation deepLocation) shortPayload).2 ≠ .ok count := by
  intro hok
  rw [shortPayload, restore_encode] at hok
  split at hok
  · next restored hrestored =>
      have hsize := (isUsable_of_restoreFiles hrestored _ List.mem_cons_self).size
      have hrelative : Path.isAbsolute "restored-file-01" = false := by decide
      have hjoin := Path.le_utf8ByteSize_join hrelative (Path.ofLocation deepLocation)
      have hname : ("restored-file-01" : String).utf8ByteSize = 16 := by decide
      rw [utf8ByteSize_deepLocation, hname] at hjoin
      exact absurd hsize (Nat.not_lt.mpr hjoin)
  · cases hok

/-- A directory that has a link where a file is restored, and a file beside the directory. -/
def linkedHost : FileSystem :=
  ⟨.directory <| .cons "a" (.directory (.cons "x" (.file [0x31] false) .nil)) <|
    .cons "t" (.directory (.cons "x" (.link "y") (.cons "y" (.file [0x30] false) .nil))) <|
      .cons "f" (.file [] false) .nil, []⟩

def linkedPayload : Bytes := (Archive.mk [⟨"x", [0x31]⟩]).encode

def linkedResult : FileSystem := (restore linkedHost "/t" linkedPayload).1

/-- A file whose path becomes too long is not restored to a missing directory. A link is written
through, which changes a file beside it. A path that goes up behind a missing name leads to nothing
at first, but may lead to a file. A tree in which a path is too long is not packed at all. -/
theorem restore_limits :
    (shortHost.node? "/a" = some (.directory shortTree) ∧ shortTree.IsTree ∧
      pack shortHost "/a" = .ok shortPayload ∧
      Reaches shortHost (Path.ofLocation deepLocation) deepLocation ∧
      (Path.ofLocation deepLocation).utf8ByteSize < pathLimit ∧
      shortHost.root.kindAt deepLocation = none ∧
      ∀ count, (restore shortHost (Path.ofLocation deepLocation) shortPayload).2 ≠ .ok count) ∧
    (pack linkedHost "/a" = .ok linkedPayload ∧
      linkedHost.root.contentsAt ["t", "y"] = some [0x30] ∧
      linkedResult.root.kindAt ["t", "x"] = some (.link "y") ∧
      linkedResult.root.contentsAt ["t", "y"] = some [0x31]) ∧
    (linkedHost.isFile "/m/../f" = false ∧ linkedHost.isDirectory "/m/../f" = false ∧
      (restore linkedHost "/m/../f" linkedPayload).2 = .error (.directory "/m/../f" .exists)) ∧
    (deepHost.node? "/a" = some (.directory (deepTree 18)) ∧ (deepTree 18).IsTree ∧
      ∀ payload, pack deepHost "/a" ≠ .ok payload) := by
  have hsize : (Path.ofLocation deepLocation).utf8ByteSize < pathLimit := by
    rw [utf8ByteSize_deepLocation]
    decide
  have htree : shortTree.IsTree := by decide +kernel
  exact ⟨⟨rfl, htree, pack_shortHost, reaches_deepLocation, hsize, kindAt_deepLocation,
    restore_deepLocation⟩, by decide +kernel, by decide +kernel, rfl, isTree_deepTree 18,
    pack_deepHost⟩

end Archive

end BuildMatrix
