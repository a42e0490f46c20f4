import BuildMatrix.Proofs.Cache.Unpacking
import BuildMatrix.Proofs.FileSystem.Region
import Mathlib.Data.List.TakeWhile

/-!
# Unpacking stays below its directory

Paths in an archive are arbitrary texts. One that is written has ordinary names only, apart from
single dots, and is looked up below the place where the path of the directory leads. If there are
no links below that place, the look-up ends where the names say, so this is all that unpacking
touches, besides making the directory and those that are missing above it.
-/

namespace BuildMatrix

namespace Path

/-- A relative path that does not start with a dot and does not lead upwards. -/
structure IsPlain (path : String) : Prop where
  nonempty : path ≠ ""
  relative : isAbsolute path = false
  here : (names path).head? ≠ some "."
  up : ".." ∉ names path

theorem isContained_iff {path : String} : isContained path ↔ IsPlain path := by
  constructor
  · intro h
    obtain ⟨hrelative, hup⟩ := of_isContained h
    simp only [isContained, Bool.and_eq_true, List.all_eq_true] at h
    refine ⟨by simpa using h.1, hrelative, fun hhere => ?_, hup⟩
    obtain ⟨rest, hnames⟩ := List.head?_eq_some_iff.mp hhere
    have hmem : Component.here ∈ components path := by simp [components, hrelative, hnames]
    simpa using h.2 _ hmem
  · intro h
    have hcomponents : components path = (names path).filterMap inner? := by
      simp only [components, h.relative, Bool.false_eq_true, if_false]
      split
      · next rest hnames => exact absurd (by rw [hnames]; rfl) h.here
      · rfl
    rw [isContained, Bool.and_eq_true, List.all_eq_true, hcomponents]
    refine ⟨by simpa using h.nonempty, fun c hc => ?_⟩
    obtain ⟨name, hname, hinner⟩ := List.mem_filterMap.mp hc
    have hup : name ≠ ".." := by
      rintro rfl
      exact h.up hname
    rw [inner?, if_neg hup] at hinner
    split at hinner
    · cases hinner
    · cases hinner
      rfl

section
variable {path : String} (h : IsPlain path) {front : List String}
include h

theorem IsPlain.isName_of_mem (hfront : front <+: names path) {name : String}
    (hname : name ∈ front.filter (· ≠ ".")) : IsName name := by
  obtain ⟨hmem, hhere⟩ := List.mem_filter.mp hname
  refine isName_of_mem_names (hfront.subset hmem) (by simpa using hhere) ?_
  rintro rfl
  exact h.up (hfront.subset hmem)

theorem IsPlain.filter_ne_nil (hfront : front <+: names path) (hne : front ≠ []) :
    front.filter (· ≠ ".") ≠ [] := by
  obtain ⟨name, rest, rfl⟩ := List.exists_cons_of_ne_nil hne
  obtain ⟨more, hmore⟩ := hfront
  have hhere : name ≠ "." := by
    rintro rfl
    exact h.here (by rw [← hmore]; rfl)
  rw [List.filter_cons_of_pos (by simpa using hhere)]
  exact List.cons_ne_nil _ _

end

end Path

namespace FileSystem

open Node (kindAt)

/-- The first names of a path lead to a location, with all links followed. -/
def Arrives (fs : FileSystem) (path : String) (front : List String) (location : Location) : Prop :=
  ∃ links, Leads (fun _ => False) fs.root linkLimit (fs.startOf path) front links location

/-- A location is where a directory leads, followed by one or more ordinary names. -/
structure Below (fs : FileSystem) (directory : String) (below location : Location) : Prop where
  top : ∃ top, Arrives fs directory (Path.names directory) top ∧ location = top ++ below
  nonempty : below ≠ []
  names : ∀ name ∈ below, IsName name

def Clear (fs : FileSystem) (directory : String) : Prop :=
  ∀ top, Arrives fs directory (Path.names directory) top → Unlinked (Under top) fs

section
variable {fs last : FileSystem} {directory : String}

theorem Extends.arrives (h : Extends fs last) {front : List String} {location : Location}
    (harrives : Arrives fs directory front location) : Arrives last directory front location := by
  obtain ⟨links, hleads⟩ := harrives
  exact ⟨links, h.leads hleads⟩

theorem Extends.below (h : Extends fs last) {below location : Location}
    (hbelow : Below fs directory below location) : Below last directory below location := by
  obtain ⟨⟨top, harrives, heq⟩, hne, hnames⟩ := hbelow
  exact ⟨⟨top, h.arrives harrives, heq⟩, hne, hnames⟩

theorem Clear.before (h : Clear last directory) (hextends : Extends fs last) :
    Clear fs directory := by
  intro top harrives location target hunder hkind
  exact h top (hextends.arrives harrives) location target hunder (hextends.kept _ _ hkind)

end

end FileSystem

namespace Archive

open FileSystem
open Node (kindAt)

/--
What unpacking files below a directory does. Nothing is taken away and no links are made. New
directories are the directory and what its path passes, and those on the way to an unpacked file;
new contents are those of an unpacked file and stand where its path says.
-/
structure Unpacked (directory : String) (archived : List ArchivedFile)
    (before after : FileSystem) : Prop extends Extends before after where
  directories : ∀ location, after.root.kindAt location = some .directory →
    before.root.kindAt location = some .directory ∨
      (∃ front, front ≠ [] ∧ front <+: Path.names directory ∧
        Arrives after directory front location) ∨
      ∃ file ∈ archived, ∃ below, below <+: Path.steps file.path ∧
        Below after directory below location
  files : ∀ location contents executable,
    after.root.get? location = some (.file contents executable) →
      before.root.get? location = some (.file contents executable) ∨
        ∃ file ∈ archived, contents = file.contents ∧
          Below after directory (Path.steps file.path) location

section
variable {directory : String} {archived : List ArchivedFile} {before after last : FileSystem}

theorem Unpacked.refl (fs : FileSystem) : Unpacked directory archived fs fs :=
  ⟨.refl fs, fun _ h => .inl h, fun _ _ _ h => .inl h⟩

theorem Unpacked.trans (h : Unpacked directory archived before after)
    (h' : Unpacked directory archived after last) : Unpacked directory archived before last where
  toExtends := h.toExtends.trans h'.toExtends
  directories location hkind := by
    rcases h'.directories location hkind with hafter | hnew
    · rcases h.directories location hafter with hbefore | hnew | hnew
      · exact .inl hbefore
      · obtain ⟨front, hne, hfront, harrives⟩ := hnew
        exact .inr (.inl ⟨front, hne, hfront, h'.arrives harrives⟩)
      · obtain ⟨file, hfile, below, hprefix, hbelow⟩ := hnew
        exact .inr (.inr ⟨file, hfile, below, hprefix, h'.toExtends.below hbelow⟩)
    · exact .inr hnew
  files location contents executable hget := by
    rcases h'.files location contents executable hget with hafter | hnew
    · rcases h.files location contents executable hafter with hbefore | hnew
      · exact .inl hbefore
      · obtain ⟨file, hfile, hcontents, hbelow⟩ := hnew
        exact .inr ⟨file, hfile, hcontents, h'.toExtends.below hbelow⟩
    · exact .inr hnew

theorem Unpacked.mono {more : List ArchivedFile} (h : Unpacked directory archived before after)
    (hsub : archived ⊆ more) : Unpacked directory more before after where
  toExtends := h.toExtends
  directories location hkind := (h.directories location hkind).imp_right fun hnew =>
    hnew.imp_right fun ⟨file, hfile, hbelow⟩ => ⟨file, hsub hfile, hbelow⟩
  files location contents executable hget := (h.files location contents executable hget).imp_right
    fun ⟨file, hfile, hbelow⟩ => ⟨file, hsub hfile, hbelow⟩

theorem Unpacked.get?_eq (h : Unpacked directory archived before after) {location : Location}
    {contents : Bytes} {executable : Bool}
    (hget : before.root.get? location = some (.file contents executable))
    (hnot : ∀ below, ¬Below after directory below location) :
    after.root.get? location = some (.file contents executable) := by
  have hkind := h.kept location .file (kindAt_of_get? hget)
  obtain ⟨node, hafter, hnode⟩ := Option.map_eq_some_iff.mp hkind
  cases node with
  | link target => cases hnode
  | directory entries => cases hnode
  | file contents' executable' =>
    rcases h.files location contents' executable' hafter with hbefore | ⟨_, _, _, hbelow⟩
    · rw [hafter, ← hbefore, hget]
    · exact absurd hbelow (hnot _)

end

/-! ### One file -/

section
variable {fs : FileSystem} {directory : String} {file : ArchivedFile}
  (hplain : Path.IsPlain file.path)
include hplain

theorem startOf_front {path : String}
    (hfront : Path.IsFront path.toList (Path.join directory file.path).toList) (hne : path ≠ "") :
    fs.startOf path = fs.startOf directory := by
  rw [← startOf_join hplain.relative fs directory, startOf, startOf, hfront.isAbsolute_eq hne]

/-- A look-up beyond the directory ends where the names say. -/
theorem below_of_walk (hclear : Clear fs directory) {follow : Bool} {more : List String}
    (hne : more ≠ []) (hmore : more <+: Path.names file.path) {place : Place}
    (h : walk fs.root follow linkLimit (fs.startOf directory) (Path.names directory ++ more) =
      .ok place) : Below fs directory (more.filter (· ≠ ".")) place.location := by
  obtain ⟨links, top, hleads, hwalk⟩ := leads_of_walk_append hne h
  have hunlinked := hclear top ⟨links, hleads⟩
  refine ⟨⟨top, ⟨links, hleads⟩, ?_⟩, hplain.filter_ne_nil hmore hne, fun name =>
    hplain.isName_of_mem hmore⟩
  refine walk_unlinked (fun passed hpassed _ target => ?_) (fun hup => hplain.up ?_) hwalk
  · exact hunlinked _ target ⟨List.prefix_append _ _, by simpa using hpassed⟩
  · exact hmore.subset hup

theorem unpacked_makeDirectory (hclear : Clear fs directory) {path : String}
    (hfront : Path.IsFront path.toList (Path.join directory file.path).toList)
    {location : Location} (hl : fs.lookup false path = .ok (.absent location)) :
    Unpacked directory [file] fs (fs.placeAt location (.directory .nil)) := by
  have hadds := adds_of_absent hl (.inr rfl)
  have hwalk := walk_of_lookup hl
  rw [startOf_front hplain hfront (isUsable_of_lookup hl).nonempty] at hwalk
  refine ⟨hadds.extends, fun other hkind => ?_, fun other contents executable hget => ?_⟩
  · by_cases hother : other = location
    · subst hother
      refine .inr ?_
      have hnames : Path.names path <+: Path.names directory ++ Path.names file.path := by
        rw [← Path.names_join hplain.relative]
        exact hfront.names
      by_cases hp : Path.names path <+: Path.names directory
      · refine .inl ⟨Path.names path, ?_, hp, ?_⟩
        · intro hnil
          rw [hnil, walk_nil] at hwalk
          split at hwalk <;> cases hwalk
        · obtain ⟨links, hleads⟩ :=
            leads_of_walk_absent hwalk hadds.extends.kept hkind (by simp)
          exact ⟨links, by rwa [hadds.extends.startOf_eq]⟩
      · obtain ⟨more, hmore⟩ :=
          (List.prefix_or_prefix_of_prefix hnames (List.prefix_append _ _)).resolve_left hp
        have hne : more ≠ [] := by
          rintro rfl
          exact hp ⟨[], by rw [List.append_nil, ← hmore, List.append_nil]⟩
        rw [← hmore, List.prefix_append_right_inj] at hnames
        rw [← hmore] at hwalk
        have hbelow := below_of_walk hplain hclear hne hnames hwalk
        exact .inr ⟨file, List.mem_singleton_self file, _, hnames.filter _,
          hadds.extends.below hbelow⟩
    · exact .inl ((hadds.kindAt_of_ne hother).symm.trans hkind)
  · refine .inl (hadds.get?_of_ne ?_ hget (by simp [Node.kind]))
    rintro rfl
    rw [hadds.get?_self] at hget
    cases hget

theorem unpacked_write (hclear : Clear fs directory) {written : FileSystem}
    (h : fs.write (Path.join directory file.path) file.contents = .ok written) :
    Unpacked directory [file] fs written := by
  obtain ⟨place, executable, hl, -, hadds⟩ := adds_of_write h
  have hwalk := walk_of_lookup hl
  rw [startOf_join hplain.relative, Path.names_join hplain.relative] at hwalk
  have hne := Path.names_ne_nil hplain.nonempty hplain.relative
  have hbelow := below_of_walk hplain hclear hne List.prefix_rfl hwalk
  refine ⟨hadds.extends, fun other hkind => ?_, fun other contents executable' hget => ?_⟩
  · refine .inl ((hadds.kindAt_of_ne ?_).symm.trans hkind)
    rintro rfl
    rw [kindAt_of_get? hadds.get?_self] at hkind
    cases hkind
  · by_cases hother : other = place.location
    · subst hother
      rw [hadds.get?_self] at hget
      cases hget
      exact .inr ⟨file, List.mem_singleton_self file, rfl, hadds.extends.below hbelow⟩
    · exact .inl (hadds.get?_of_ne hother hget (by simp [Node.kind]))

/-- The directories above a file, for as long as nothing below the directory is a link. -/
theorem unpacked_makeDirectories {path : String}
    (hfront : Path.IsFront path.toList (Path.join directory file.path).toList)
    (hclear : Clear (fs.makeDirectories path).1 directory) :
    Unpacked directory [file] fs (fs.makeDirectories path).1 := by
  have hall : ∀ last, (fs.makeDirectories path).1.Extends last → Clear last directory →
      Unpacked directory [file] fs (fs.makeDirectories path).1 := by
    refine makeDirectories_induction
      (P := fun made => ∀ last, made.Extends last → Clear last directory →
        Unpacked directory [file] fs made) (fun _ _ _ => .refl fs) ?_
    intro made front location ih hf hl last hextends hlast
    have hmade : made.Extends (made.placeAt location (.directory .nil)) :=
      (adds_of_absent hl (.inr rfl)).extends
    have hbefore := hlast.before (hmade.trans hextends)
    exact (ih last (hmade.trans hextends) hlast).trans
      (unpacked_makeDirectory hplain hbefore (hf.trans hfront) hl)
  exact hall _ (.refl _) hclear

theorem unpacked_restoreFile (hclear : Clear (restoreFile fs directory file).1 directory) :
    Unpacked directory [file] fs (restoreFile fs directory file).1 := by
  have hfront {parent : String}
      (hparent : parent = (Path.parent? (Path.join directory file.path)).getD "") :
      Path.IsFront parent.toList (Path.join directory file.path).toList := by
    cases hp : Path.parent? (Path.join directory file.path) with
    | none =>
      rw [hparent, hp]
      exact ⟨List.nil_prefix, List.nil_prefix⟩
    | some found =>
      rw [hparent, hp]
      exact Path.isFront_parent? hp
  rcases restoreFile_cases fs directory file with ⟨h, -⟩ | ⟨-, parent, hparent, h⟩
  · rw [h]
    exact .refl fs
  · rcases h with ⟨cause, h⟩ | ⟨cause, h⟩ | ⟨written, h, hwritten⟩
    · rw [h] at hclear ⊢
      exact unpacked_makeDirectories hplain (hfront hparent) hclear
    · rw [h] at hclear ⊢
      exact unpacked_makeDirectories hplain (hfront hparent) hclear
    · rw [h] at hclear ⊢
      have hmade := hclear.before (extends_write hwritten)
      exact (unpacked_makeDirectories hplain (hfront hparent) hmade).trans
        (unpacked_write hplain hmade hwritten)

end

/-! ### All files -/

theorem unpacked_restoreFiles {fs : FileSystem} {directory : String} {archived : List ArchivedFile}
    (hplain : ∀ file ∈ archived, Path.IsPlain file.path)
    (hclear : Clear (restoreFiles fs directory archived).1 directory) :
    Unpacked directory archived fs (restoreFiles fs directory archived).1 := by
  induction archived generalizing fs with
  | nil => exact .refl fs
  | cons file rest ih =>
    obtain ⟨hfirst, hrest⟩ := List.forall_mem_cons.mp hplain
    have hfile (hclear : Clear (restoreFile fs directory file).1 directory) :
        Unpacked directory (file :: rest) fs (restoreFile fs directory file).1 :=
      (unpacked_restoreFile hfirst hclear).mono (by simp)
    rw [restoreFiles] at hclear ⊢
    split
    · next made hmade =>
        simp only [hmade] at hclear hfile
        have hlater := ih hrest hclear
        exact (hfile (hclear.before hlater.toExtends)).trans
          (hlater.mono (List.subset_cons_self file rest))
    · next hfailed =>
        split at hclear
        · next made hmade => exact absurd hmade (hfailed made)
        · exact hfile hclear

/-- An archive is unpacked up to its first path that is not plain. -/
theorem exists_unpacked_part (files : FileSystem) (directory : String) {payload : Bytes}
    {archive : Archive} (hdecode : decode? payload = some archive) :
    ∃ written rest, archive.files = written ++ rest ∧
      (∀ file ∈ written, Path.IsPlain file.path) ∧ (∀ file ∈ rest.head?, ¬Path.IsPlain file.path) ∧
      (rest ≠ [] → ∃ e, (restore files directory payload).2 = .error e) ∧
      (restore files directory payload).1 = (restoreFiles files directory written).1 := by
  have hne : payload.isEmpty = false := by
    cases payload with
    | nil => cases hdecode.symm.trans decode?_nil
    | cons b payload => rfl
  have hplain : ∀ file ∈ safePart archive.files, Path.IsPlain file.path := fun file hfile =>
    Path.isContained_iff.mp (isContained_of_mem_safePart hfile)
  have hstop := restoreFiles_eq_safePart files directory archive.files
  simp only [restore, hne, hdecode, Bool.false_eq_true, if_false]
  cases hbad : refused? archive.files with
  | none =>
    have hall : safePart archive.files = archive.files := by
      refine List.takeWhile_eq_self_iff.mpr fun file hfile => ?_
      simpa using List.find?_eq_none.mp hbad file hfile
    refine ⟨archive.files, [], (List.append_nil _).symm, hall ▸ hplain, by simp, by simp, ?_⟩
    split
    · next h => rw [h]
    · next h => rw [h]
  | some bad =>
    obtain ⟨rest, hrest⟩ := exists_eq_safePart_append hbad
    have hnot : ¬Path.IsPlain bad.path := by
      rw [← Path.isContained_iff]
      simpa using List.find?_some hbad
    refine ⟨_, _, hrest, hplain, by simpa using hnot, ?_⟩
    rw [hbad] at hstop
    rw [hstop]
    cases restoreFiles files directory (safePart archive.files) with
    | mk written result =>
      cases result with
      | error e => exact ⟨fun _ => ⟨e, rfl⟩, rfl⟩
      | ok _ => exact ⟨fun _ => ⟨_, rfl⟩, rfl⟩

/--
Whatever the payload is and whether or not it is restored completely: if there are no links below
where the directory leads, what is new or changed is the directory itself with the missing ones
that its path passes, and what lies below it under the names of plain paths of the archive. Files
elsewhere keep their contents and nothing is removed. A path that is not plain is never written: it
ends the unpacking with an error, and the files are left as if the archive had ended there.
-/
theorem restore_contained (files : FileSystem) (directory : String) (payload : Bytes)
    (hlinks : ∀ top, Arrives (restore files directory payload).1 directory
      (Path.names directory) top → Unlinked (Under top) files) :
    (decode? payload = none → (restore files directory payload).1 = files) ∧
      ∀ archive, decode? payload = some archive → ∃ written rest,
        archive.files = written ++ rest ∧ (∀ file ∈ written, Path.IsPlain file.path) ∧
        (∀ file ∈ rest.head?, ¬Path.IsPlain file.path) ∧
        (rest ≠ [] → ∃ e, (restore files directory payload).2 = .error e) ∧
        (restore files directory payload).1 = (restoreFiles files directory written).1 ∧
        Unpacked directory written files (restore files directory payload).1 ∧
        ∀ location contents executable,
          files.root.get? location = some (.file contents executable) →
          (∀ below, ¬Below (restore files directory payload).1 directory below location) →
          (restore files directory payload).1.root.get? location =
            some (.file contents executable) := by
  constructor
  · intro hdecode
    rw [restore, hdecode]
    split <;> rfl
  · intro archive hdecode
    obtain ⟨written, rest, hfiles, hplain, hrest, herror, hsame⟩ :=
      exists_unpacked_part files directory hdecode
    have hunpacked : Unpacked directory written files (restore files directory payload).1 := by
      have hextends := extends_restoreFiles files directory written
      rw [hsame] at hlinks ⊢
      refine unpacked_restoreFiles hplain fun top htop location target hunder hkind => ?_
      exact hlinks top htop location target hunder (hextends.links _ _ hkind)
    exact ⟨written, rest, hfiles, hplain, hrest, herror, hsame, hunpacked,
      fun location contents executable => hunpacked.get?_eq⟩

def climbingArchive : Archive := ⟨[⟨"a//./b", [0x31]⟩, ⟨"a/../../f", [0x32]⟩]⟩

def linkedTarget : FileSystem :=
  ⟨.directory <| .cons "f" (.file [0x30] false) <| .cons "t" (.directory .nil) <|
    .cons "l" (.link "/t") .nil, []⟩

def climbingResult : FileSystem := (restore linkedTarget "/l" climbingArchive.encode).1

theorem arrives_linkedTarget :
    Arrives climbingResult "/l" (Path.names "/l") ["t"] := by
  have hlink : climbingResult.root.kindAt ["l"] = some (.link "/t") := by decide +kernel
  have hdirectory : climbingResult.root.kindAt ["t"] = some .directory := by decide +kernel
  have hnames : Path.names "/l" = ["l"] := by decide
  have htarget : Path.names "/t" = ["t"] := by decide
  have hdown : Leads (fun _ => False) climbingResult.root 39 [] (Path.names "/t") 39 ["t"] := by
    rw [htarget]
    exact .down (by decide) hdirectory (by simp) id .done
  rw [hnames]
  refine ⟨39, .through (by decide) hlink (by decide) id ?_⟩
  rw [List.append_nil]
  exact hdown

/-- Through a link to the directory, one file is unpacked, and the one beside it stays. -/
theorem restore_contained_climbing :
    (∃ written rest, climbingArchive.files = written ++ rest ∧ rest ≠ [] ∧
      Unpacked "/l" written linkedTarget climbingResult) ∧
    climbingResult.read "/t/a/b" = .ok [0x31] ∧
    climbingResult.root.get? ["f"] = some (.file [0x30] false) := by
  have hdecode : decode? climbingArchive.encode = some climbingArchive := by decide +kernel
  have htop {top : Location} (h : Arrives climbingResult "/l" (Path.names "/l") top) :
      top = ["t"] := by
    obtain ⟨links, hleads⟩ := h
    obtain ⟨links', hleads'⟩ := arrives_linkedTarget
    exact (hleads.unique hleads').2
  have hlinks : ∀ top, Arrives climbingResult "/l" (Path.names "/l") top →
      Unlinked (Under top) linkedTarget := by
    rintro top harrives location target ⟨⟨rest, rfl⟩, hne⟩ hkind
    obtain rfl := htop harrives
    have hempty : linkedTarget.root.get? ["t"] = some (.directory .nil) := rfl
    rw [kindAt_append hempty, Node.kindAt_nil_directory rest (by simpa using hne)] at hkind
    cases hkind
  obtain ⟨written, rest, hfiles, hplain, -, -, -, hunpacked, hothers⟩ :=
    (restore_contained linkedTarget "/l" climbingArchive.encode hlinks).2 _ hdecode
  refine ⟨⟨written, rest, hfiles, ?_, hunpacked⟩, by decide +kernel, ?_⟩
  · rintro rfl
    rw [List.append_nil] at hfiles
    have hbad := hplain ⟨"a/../../f", [0x32]⟩ (by rw [← hfiles]; decide)
    exact hbad.up (by decide)
  · refine hothers ["f"] [0x30] false rfl fun below ⟨⟨top, harrives, heq⟩, _, _⟩ => ?_
    rw [htop harrives] at heq
    simp at heq

end Archive

end BuildMatrix
