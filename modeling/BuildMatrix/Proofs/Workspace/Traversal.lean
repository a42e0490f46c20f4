import BuildMatrix.Proofs.Workspace.Copy

/-!
# Copies while they are made

A directory is listed after its copy was made, so a tree that has the copy changes while it is read.
What is written is below the copy, which is not entered: the directories that are entered list the
same names as before, and their files and links are where they were.
-/

namespace BuildMatrix

open FileSystem

namespace Entries

theorem kinds_insert {name : String} {old new : Node} (hkind : new.entryKind = old.entryKind) :
    ∀ {entries : Entries}, entries.find? name = some old →
      (entries.insert name new).kinds = entries.kinds
  | nil, h => by simp at h
  | cons first node rest, h => by
      rw [find?_cons] at h
      by_cases hn : first = name
      · rw [if_pos hn] at h
        cases h
        simp [insert, hn, kinds, hkind]
      · rw [if_neg hn] at h
        simp [insert, hn, kinds, kinds_insert hkind h]

end Entries

theorem Node.kinds_place {entries inner : Entries} {down : Location} (hne : down ≠ [])
    (h : (directory entries).get? down = some (directory inner)) (new : Entries) :
    ∃ now, (directory entries).place down (directory new) = directory now ∧
      now.kinds = entries.kinds := by
  obtain ⟨name, rest, rfl⟩ := List.exists_cons_of_ne_nil hne
  obtain ⟨deeper, hchild, hrest⟩ := exists_directory_of_get?_cons h
  obtain ⟨deeper', hplace⟩ := exists_directory_place deeper rest new
  have hkind : (directory deeper').entryKind = (directory deeper).entryKind := rfl
  rw [place_cons hchild, hplace]
  exact ⟨_, rfl, Entries.kinds_insert hkind hchild⟩

namespace Workspace

/-- What the files are once a copy was begun at `dest`: only there something is new. -/
def Copying (base : FileSystem) (dest : Location) (fs : FileSystem) : Prop :=
  ∃ entries, fs = base.withEntries dest entries

section
variable {base fs : FileSystem} {dest location : Location} {entries : Entries}
  (hdest : base.root.get? dest = some (.directory .nil))
include hdest

theorem copying_start : Copying base dest base := ⟨.nil, (withEntries_self hdest).symm⟩

theorem Copying.withEntries (h : Copying base dest fs) (hp : dest <+: location)
    (new : Entries) : Copying base dest (fs.withEntries location new) := by
  obtain ⟨entries, rfl⟩ := h
  obtain ⟨down, rfl⟩ := hp
  have hget := get?_withEntries hdest entries
  obtain ⟨now, hnow⟩ := Node.exists_directory_place entries down new
  refine ⟨now, ?_⟩
  rw [FileSystem.withEntries, placeAt, Node.place_append hget, hnow]
  exact withEntries_withEntries hdest entries now

theorem Copying.get?_leaf (h : Copying base dest fs) {node : Node}
    (hget : base.root.get? location = some node) (hkind : node.entryKind ≠ .directory) :
    fs.root.get? location = some node := by
  obtain ⟨entries, rfl⟩ := h
  have hbelow : ¬dest <+: location := by
    rintro ⟨rest, rfl⟩
    rw [Node.get?_append, hdest, Option.bind_some] at hget
    cases rest with
    | nil =>
        obtain rfl : Node.directory .nil = node := by simpa using hget
        exact hkind rfl
    | cons name rest => cases hget
  have habove : ¬location <+: dest := by
    rintro ⟨rest, rfl⟩
    rw [Node.get?_append, hget, Option.bind_some] at hdest
    obtain ⟨inner, rfl⟩ := Node.exists_directory_of_get? hdest
    exact hkind rfl
  rw [FileSystem.withEntries, placeAt, Node.get?_place_of_incomparable hbelow habove, hget]

theorem Copying.get?_directory (h : Copying base dest fs)
    (hd : base.root.get? location = some (.directory entries)) (hout : ¬dest <+: location) :
    ∃ now, fs.root.get? location = some (.directory now) ∧ now.kinds = entries.kinds := by
  obtain ⟨new, rfl⟩ := h
  by_cases hp : location <+: dest
  · obtain ⟨down, rfl⟩ := hp
    have hne : down ≠ [] := by
      rintro rfl
      exact hout (by simp)
    rw [Node.get?_append, hd, Option.bind_some] at hdest
    obtain ⟨now, hplace, hkinds⟩ := Node.kinds_place hne hdest new
    have hget := Node.get?_place hd (.directory now) []
    rw [List.append_nil, Node.get?_nil] at hget
    refine ⟨now, ?_, hkinds⟩
    rw [FileSystem.withEntries, placeAt, Node.place_append hd, hplace, hget]
  · refine ⟨entries, ?_, rfl⟩
    rw [FileSystem.withEntries, placeAt, Node.get?_place_of_incomparable hout hp, hd]

end

/-- A path of a directory that is copied to `dest`. It leads there from outside of the copy, and of
the directories below it `dest` alone has the components `own`. -/
structure Covers (base : FileSystem) (dest : Location) (own : List Path.Component) (links : Nat)
    (source : String) (location : Location) (entries : Entries) : Prop where
  resolves : Resolves (Under dest) base source links location
  directory : base.root.get? location = some (.directory entries)
  outside : ¬dest <+: location
  tree : entries.IsTree
  named : ∀ down inner path, down ≠ [] →
    (Node.directory entries).get? down = some (.directory inner) →
    Path.isAbsolute path = Path.isAbsolute source → Path.names path = Path.names source ++ down →
    (Path.components path = own ↔ location ++ down = dest)

section
variable {base fs : FileSystem} {dest location : Location} {own : List Path.Component}
  {links : Nat} {source name : String} {entries inner : Entries}
  (h : Covers base dest own links source location entries)
include h

theorem Covers.components_eq_iff (hfind : entries.find? name = some (.directory inner)) :
    Path.components (Path.join source name) = own ↔ location ++ [name] = dest := by
  have hn := (h.tree.find? hfind).1
  refine h.named [name] inner _ (by simp) ?_ (Path.isAbsolute_join hn.isAbsolute_eq _)
    (hn.names_join _)
  rw [Node.get?_directory, hfind, Option.bind_some, Node.get?_nil]

theorem Covers.enter (hfind : entries.find? name = some (.directory inner))
    (hne : location ++ [name] ≠ dest) :
    Covers base dest own links (Path.join source name) (location ++ [name]) inner := by
  obtain ⟨hn, hname, hinner⟩ := h.tree.find? hfind
  have hget := (Node.get?_concat h.directory name).trans hfind
  have hout : ¬dest <+: location ++ [name] := outside_concat h.outside hne
  refine ⟨h.resolves.join hn hname (kindAt_of_get? hget) fun hu => hout hu.1, hget, hout, hinner,
    fun down deeper path _ hdown habs hnames => ?_⟩
  rw [List.append_assoc]
  refine h.named ([name] ++ down) deeper path (by simp) ?_ ?_ ?_
  · rw [List.singleton_append, Node.get?_directory, hfind, Option.bind_some, hdown]
  · rw [habs, Path.isAbsolute_join hn.isAbsolute_eq]
  · rw [hnames, hn.names_join, List.append_assoc]

variable (hdest : base.root.get? dest = some (.directory .nil)) (hcopying : Copying base dest fs)
include hdest hcopying

theorem Covers.resolves_now : Resolves (Under dest) fs source links location := by
  obtain ⟨new, rfl⟩ := hcopying
  exact h.resolves.frame (isClosed_under dest) (confined_withEntries hdest new)

theorem Covers.readDirectory (hu : IsUsable source) :
    ∃ now, fs.readDirectory source = .ok now ∧ now.kinds = entries.kinds := by
  obtain ⟨now, hget, hkinds⟩ := hcopying.get?_directory hdest h.directory h.outside
  exact ⟨now, (h.resolves_now hdest hcopying).readDirectory_base hu hget, hkinds⟩

theorem Covers.find?_now {node : Node} (hfind : entries.find? name = some node)
    (hkind : node.entryKind ≠ .directory) :
    ∃ now, fs.root.get? location = some (.directory now) ∧ now.find? name = some node := by
  obtain ⟨now, hget, -⟩ := hcopying.get?_directory hdest h.directory h.outside
  have hleaf := hcopying.get?_leaf hdest ((Node.get?_concat h.directory name).trans hfind) hkind
  exact ⟨now, hget, by rw [← Node.get?_concat hget, hleaf]⟩

theorem Covers.lookup_file {contents : Bytes} {executable : Bool}
    (hfind : entries.find? name = some (.file contents executable))
    (hu : IsUsable (Path.join source name)) : fs.lookup true (Path.join source name) =
      .ok (.present (location ++ [name]) (.file contents executable)) := by
  obtain ⟨hn, hname, -⟩ := h.tree.find? hfind
  obtain ⟨now, hget, hnow⟩ := h.find?_now hdest hcopying hfind (by simp [Node.entryKind])
  exact (h.resolves_now hdest hcopying).lookup_entry hn hu hname hget hnow (by simp)

theorem Covers.readLink {target : String} (hfind : entries.find? name = some (.link target))
    (hu : IsUsable (Path.join source name)) : fs.readLink (Path.join source name) = .ok target := by
  obtain ⟨hn, hname, -⟩ := h.tree.find? hfind
  obtain ⟨now, hget, hnow⟩ := h.find?_now hdest hcopying hfind (by simp [Node.entryKind])
  rw [readLink_eq, (h.resolves_now hdest hcopying).lookup_join hn hu, walk_link hget hname hnow]

end

/-- Nothing is below an empty directory, so no path leads through what is there. -/
theorem resolves_under {avoid : Location → Prop} {fs : FileSystem} {path : String} {links : Nat}
    {dest location : Location} (h : Resolves avoid fs path links location)
    (hend : fs.root.kindAt location ≠ none)
    (hdest : fs.root.get? dest = some (.directory .nil)) :
    Resolves (Under dest) fs path links location := by
  refine (h.avoid_absent hend fun l hl => ?_).mono fun _ hl => .inr hl
  obtain ⟨⟨rest, rfl⟩, hne⟩ := hl
  cases rest with
  | nil => simp at hne
  | cons name rest =>
      rw [Node.kindAt, Node.get?_append, hdest, Option.bind_some, Node.get?_directory]
      rfl

/-! ### One entry -/

section
variable {base fs : FileSystem} {dest location there : Location} {own : List Path.Component}
  {links links' fuel : Nat} {source target name : String} {entries inner rest before : Entries}
  {enter : String → String → FileSystem → FileSystem × Except WorkspaceError Nat}
  (hdest : base.root.get? dest = some (.directory .nil)) (hcopying : Copying base dest fs)
  (h : Covers base dest own links source location entries)
include hdest hcopying h

theorem puts_file {contents : Bytes} {executable : Bool}
    (hfind : entries.find? name = some (.file contents executable))
    (hr : Receives links' target there (.cons name (.file contents executable) rest) before fs) :
    Puts (.cons name (.file contents executable) .nil) before there fs
      (Ready source target fuel (.cons name (.file contents executable) .nil))
      (copyEntry enter own source target name .file fs) := by
  obtain ⟨hn, hname, -⟩ := h.tree.find? hfind
  have hmissing := hr.head_missing
  rw [copyEntry_file]
  by_cases hu : IsUsable (Path.join source name)
  · rcases hr.resolves.copyFile_new hn hname hr.directory hmissing
      (h.lookup_file hdest hcopying hfind hu) with ⟨hu', hcopy⟩ | ⟨hu', e, hcopy⟩
    · simp only [hcopy]
      have hready : Ready source target fuel (.cons name (.file contents executable) .nil) :=
        ⟨⟨hu, trivial⟩, ⟨hu', trivial⟩, Nat.zero_le fuel⟩
      refine ⟨⟨_, rfl, fun count hcount => ?_⟩, iff_of_true ⟨1, rfl⟩ hready⟩
      cases hcount
      exact ⟨Entries.insert_of_find?_eq_none _ hmissing, rfl⟩
    · simp only [hcopy]
      exact .failed hr.directory (fun hready => hu' hready.targets.head) _
  · obtain ⟨e, -, hlookup⟩ := lookup_of_not_isUsable hu (hn.join_ne_empty source) fs
    rw [copyFile_eq, hlookup]
    exact .failed hr.directory (fun hready => hu hready.sources.head) _

theorem puts_link {link : String} (hfind : entries.find? name = some (.link link))
    (hr : Receives links' target there (.cons name (.link link) rest) before fs) :
    Puts (.cons name (.link link) .nil) before there fs
      (Ready source target fuel (.cons name (.link link) .nil))
      (copyEntry enter own source target name .link fs) := by
  obtain ⟨hn, hname, -⟩ := h.tree.find? hfind
  have hmissing := hr.head_missing
  rw [copyEntry_link]
  by_cases hu : IsUsable (Path.join source name)
  · rw [h.readLink hdest hcopying hfind hu]
    rcases hr.resolves.makeLink_new hn hname hr.directory hmissing link with
      ⟨hu', hmake⟩ | ⟨hu', e, hmake⟩
    · simp only [hmake]
      have hready : Ready source target fuel (.cons name (.link link) .nil) :=
        ⟨⟨hu, trivial⟩, ⟨hu', trivial⟩, Nat.zero_le fuel⟩
      refine ⟨⟨_, rfl, fun count hcount => ?_⟩, iff_of_true ⟨1, rfl⟩ hready⟩
      cases hcount
      exact ⟨Entries.insert_of_find?_eq_none _ hmissing, rfl⟩
    · simp only [hmake]
      exact .failed hr.directory (fun hready => hu' hready.targets.head) _
  · obtain ⟨e, -, hlookup⟩ := lookup_of_not_isUsable hu (hn.join_ne_empty source) fs
    rw [readLink_eq, hlookup]
    exact .failed hr.directory (fun hready => hu hready.sources.head) _

end

/-- The copies below a new directory make up its copy. -/
theorem Puts.within {new before : Entries} {location : Location} {fs : FileSystem} {ready : Prop}
    {name : String} {result : FileSystem × Except WorkspaceError Nat}
    (hd : fs.root.get? location = some (.directory before)) (hmissing : before.find? name = none)
    (h : Puts new .nil (location ++ [name])
      (fs.withEntries location (before.insert name (.directory .nil))) ready result) :
    Puts (.cons name (.directory new) .nil) before location fs ready result := by
  obtain ⟨⟨after, hfiles, hok⟩, hsucceeds⟩ := h
  rw [withEntries_concat hd] at hfiles
  refine ⟨⟨_, hfiles, fun count hcount => ?_⟩, hsucceeds⟩
  obtain ⟨rfl, rfl⟩ := hok count hcount
  exact ⟨Entries.insert_of_find?_eq_none _ hmissing, rfl⟩

theorem puts_copyWithin {base fs made : FileSystem} {dest location there : Location}
    {own : List Path.Component} {links fuel : Nat} {source target : String}
    {entries new : Entries} (hdest : base.root.get? dest = some (.directory .nil))
    (h : Covers base dest own links source location entries)
    (hmake : fs.makeDirectories target = (made, .ok ())) (hcopying : Copying base dest made)
    (hget : made.root.get? there = some (.directory .nil))
    (hentries : ∀ less, fuel = less + 1 → Puts new .nil there made (Ready source target less new)
      (copyEntries (copyWithin own less) own source target entries.kinds made)) :
    Puts new .nil there made
      (IsUsable source ∧ ∃ less, fuel = less + 1 ∧ Ready source target less new)
      (copyWithin own fuel source target fs) := by
  unfold copyWithin
  simp only [hmake]
  by_cases hu : IsUsable source
  · obtain ⟨now, hread, hkinds⟩ := h.readDirectory hdest hcopying hu
    simp only [hread, hkinds]
    cases fuel with
    | zero => exact .failed hget (by simp) _
    | succ less =>
        refine (hentries less rfl).congr ⟨fun hready => ⟨hu, less, rfl, hready⟩, ?_⟩
        rintro ⟨-, _, hless, hready⟩
        cases hless
        exact hready
  · have hnone : ∃ e, made.readDirectory source = .error e := by
      cases hread : made.readDirectory source with
      | error e => exact ⟨e, rfl⟩
      | ok now =>
          refine absurd ?_ hu
          rw [readDirectory_eq] at hread
          split at hread
          · cases hread
          · next hl => exact isUsable_of_lookup hl
          · cases hread
          · cases hread
    obtain ⟨e, hread⟩ := hnone
    simp only [hread]
    exact .failed hget (fun hready => hu hready.1) _

/-! ### All entries -/

section
variable {base fs : FileSystem} {dest location there : Location} {own : List Path.Component}
  {links links' fuel : Nat} {source target name : String} {entries inner rest before : Entries}
  (hdest : base.root.get? dest = some (.directory .nil)) (hcopying : Copying base dest fs)
  (h : Covers base dest own links source location entries)
include hdest hcopying h

theorem puts_directory (hfind : entries.find? name = some (.directory inner))
    (hp : dest <+: there)
    (hr : Receives links' target there (.cons name (.directory inner) rest) before fs)
    (hinner : ∀ less made, Copying base dest made →
      Covers base dest own links (Path.join source name) (location ++ [name]) inner →
      Receives links' (Path.join target name) (there ++ [name]) inner .nil made →
      Puts (kept dest (location ++ [name]) inner) .nil (there ++ [name]) made
        (Ready (Path.join source name) (Path.join target name) less
          (kept dest (location ++ [name]) inner))
        (copyEntries (copyWithin own less) own (Path.join source name) (Path.join target name)
          inner.kinds made)) :
    Puts (kept dest location (.cons name (.directory inner) .nil)) before there fs
      (Ready source target fuel (kept dest location (.cons name (.directory inner) .nil)))
      (copyEntry (copyWithin own fuel) own source target name .directory fs) := by
  obtain ⟨hn, hname, -⟩ := h.tree.find? hfind
  have hown := h.components_eq_iff hfind
  have hmissing := hr.head_missing
  rw [copyEntry_directory, kept]
  simp only [Bool.or_eq_true, decide_eq_true_eq, hown]
  by_cases hskip : location ++ [name] = dest ∨ isSkipped name
  · rw [if_pos hskip, if_pos hskip]
    exact .nothing hr.directory ready_nil
  · rw [if_neg hskip, if_neg hskip]
    have hne : location ++ [name] ≠ dest := fun heq => hskip (.inl heq)
    rcases hr.resolves.makeDirectories_new hn hname hr.directory hmissing with
      ⟨hu, hmake⟩ | ⟨hu, e, hmake⟩
    · have hmade := hr.made hn hname inner
      have hcopying' := hcopying.withEntries hdest hp (before.insert name (.directory .nil))
      have henter := h.enter hfind hne
      exact ((puts_copyWithin hdest henter hmake hcopying' hmade.directory fun less _ =>
        hinner less _ hcopying' henter hmade).within hr.directory hmissing).congr
          ((and_iff_right hu).symm.trans ready_directory.symm)
    · have hfailed : copyWithin own fuel (Path.join source name) (Path.join target name) fs =
          (fs, .error (.makeDirectory (Path.join target name) e)) := by
        unfold copyWithin
        simp only [hmake]
      rw [hfailed]
      exact .failed hr.directory (fun hready => hu hready.targets.head) _

end

/-! ### All entries -/

section
variable {base : FileSystem} {dest : Location} {own : List Path.Component}
  (hdest : base.root.get? dest = some (.directory .nil))
include hdest

/-- The entries of a directory are copied, but not the copy itself, whatever the copy has. -/
theorem copyEntries_spec : ∀ (part : Entries) (fuel : Nat) {entries before : Entries}
    {fs : FileSystem} {location there : Location} {links links' : Nat} {source target : String},
    Covers base dest own links source location entries → part.IsTree →
    (∀ name node, part.find? name = some node → entries.find? name = some node) →
    Copying base dest fs → dest <+: there → Receives links' target there part before fs →
    Puts (kept dest location part) before there fs
      (Ready source target fuel (kept dest location part))
      (copyEntries (copyWithin own fuel) own source target part.kinds fs)
  | .nil, _, _, _, _, _, _, _, _, _, _, _, _, _, _, _, hr =>
      .nothing hr.directory ready_nil
  | .cons name node rest, fuel, entries, before, fs, location, there, links, links', source,
      target, h, ⟨_, _, hnew, hnode, hrest⟩, hpart, hcopying, hp, hr => by
      have hfind : entries.find? name = some node := hpart name node (by simp [Entries.find?_cons])
      have hfirst : Puts (kept dest location (.cons name node .nil)) before there fs
          (Ready source target fuel (kept dest location (.cons name node .nil)))
          (copyEntry (copyWithin own fuel) own source target name node.entryKind fs) := by
        cases node with
        | file contents executable => exact puts_file hdest hcopying h hfind hr
        | link link => exact puts_link hdest hcopying h hfind hr
        | directory inner =>
            exact puts_directory hdest hcopying h hfind hp hr fun less made hmade henter hreceives =>
              copyEntries_spec inner less henter hnode (fun _ _ hfound => hfound) hmade
                (hp.trans (List.prefix_append _ _)) hreceives
      have hreceives : Receives links' target there rest
          (before.append (kept dest location (.cons name node .nil))) _ :=
        hr.append hnew fun _ => find?_kept_single node
      have hothers := copyEntries_spec rest fuel h hrest (Entries.find?_of_tail hnew hpart)
        (hcopying.withEntries hdest hp _) hp hreceives
      rw [kept_cons]
      exact (hfirst.cons hr.directory hothers).congr ready_append.symm

theorem copyWithin_spec {fs : FileSystem} {location : Location} {links links' : Nat}
    {source target : String} {entries : Entries}
    (h : Covers base dest own links source location entries)
    (hmake : fs.makeDirectories target = (base, .ok ()))
    (htarget : Resolves (Under dest) base target links' dest) (fuel : Nat) :
    Puts (kept dest location entries) .nil dest base (IsUsable source ∧ ∃ less, fuel = less + 1 ∧
      Ready source target less (kept dest location entries))
      (copyWithin own fuel source target fs) :=
  puts_copyWithin hdest h hmake (copying_start hdest) hdest fun less _ =>
    copyEntries_spec hdest entries less h h.tree (fun _ _ hfound => hfound) (copying_start hdest)
      List.prefix_rfl ⟨htarget, hdest, fun _ _ => rfl⟩

omit hdest in
/-- The paths of directories are as long as there are directories within each other. -/
theorem depth_kept : ∀ {entries : Entries} {location : Location} {source : String},
    entries.IsTree → IsUsable source → Addressable source (kept dest location entries) →
    source.utf8ByteSize + (kept dest location entries).depth < pathLimit
  | .nil, _, _, _, hu, _ => hu.size
  | .cons name node rest, location, source, ⟨hn, hname, _, hnode, hrest⟩, hu, ha => by
      rw [kept_cons] at ha ⊢
      obtain ⟨hfirst, hothers⟩ := addressable_append.mp ha
      have ih := depth_kept hrest hu hothers
      rw [Entries.depth_append]
      suffices source.utf8ByteSize + (kept dest location (.cons name node .nil)).depth < pathLimit by
        omega
      cases node with
      | file contents executable => exact hu.size
      | link target => exact hu.size
      | directory inner =>
          rw [kept] at hfirst ⊢
          split
          · exact hu.size
          · next hskip =>
              rw [if_neg hskip] at hfirst
              have hinner := depth_kept hnode hfirst.1 hfirst.2.1
              have hlonger := hn.lt_utf8ByteSize_join source
              simp only [kept, Entries.depth]
              omega

theorem copyTree_puts {fs : FileSystem} {location : Location} {links links' : Nat}
    {source target : String} {entries : Entries}
    (h : Covers base dest (Path.components target) links source location entries)
    (hmake : fs.makeDirectories target = (base, .ok ()))
    (htarget : Resolves (Under dest) base target links' dest) :
    Puts (kept dest location entries) .nil dest base (IsUsable source ∧
      Addressable source (kept dest location entries) ∧
      Addressable target (kept dest location entries)) (copyTree fs source target) := by
  refine (copyWithin_spec hdest h hmake htarget pathLimit).congr ⟨?_, ?_⟩
  · rintro ⟨hu, less, -, hready⟩
    exact ⟨hu, hready.sources, hready.targets⟩
  · rintro ⟨hu, hsources, htargets⟩
    have hdepth := depth_kept h.tree hu hsources
    exact ⟨hu, pathLimit - 1, rfl, hsources, htargets, by omega⟩

end

end Workspace

end BuildMatrix
