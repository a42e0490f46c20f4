import BuildMatrix.Cache.Policy
import BuildMatrix.Proofs.Execution.Housing
import BuildMatrix.Proofs.Workspace.Route

/-!
# Where a manifest is looked up

The preview and the cache key look for the manifest below the package root, each by a path of its
own and at a time of its own; a run looks for it in its copy. What they read is determined by how
the look-up leads through the package root as it was before the execution.
-/

namespace BuildMatrix

open FileSystem

theorem Path.mem_toList_join {c : Char} {path : String} (h : c ∈ path.toList) (base : String) :
    c ∈ (Path.join base path).toList := by
  unfold Path.join
  split
  · exact h
  · split <;> simp [h]

theorem Path.not_mem_toList_join {c : Char} {base path : String} (hc : c ≠ '/')
    (hbase : c ∉ base.toList) (h : c ∉ path.toList) : c ∉ (Path.join base path).toList := by
  unfold Path.join
  split
  · exact h
  · split <;> simp [h, hbase, hc]

theorem Path.join_ne_empty {path : String} (h : path ≠ "") (base : String) :
    Path.join base path ≠ "" := by
  unfold Path.join
  split
  · exact h
  · split <;> simp [h]

namespace FileSystem

theorem bind_contents_eq_tooManyLinks (slash : Bool) {result : Except FileError Place} :
    result.bind (Place.contents slash) = .error .tooManyLinks ↔ result = .error .tooManyLinks := by
  cases result with
  | error e => simp [Except.bind]
  | ok place =>
    cases place with
    | absent location => simp [Except.bind, Place.contents]
    | present location node => cases node <;> cases slash <;> simp [Except.bind, Place.contents]

/-- A joined path is read where its base leads, with no more links than are left there. -/
theorem read_join {avoid : Location → Prop} {fs : FileSystem} {base path : String}
    {links left : Nat} {location : Location} (h : Resolves avoid fs base left location)
    (hle : links ≤ left) (hu : IsUsable (Path.join base path))
    (hrel : Path.isAbsolute path = false) (hne : path ≠ "")
    (hlinks : walk fs.root true links location (Path.names path) ≠ .error .tooManyLinks) :
    fs.read (Path.join base path) = (walk fs.root true links location (Path.names path)).bind
      (Place.contents (Path.endsInSlash path)) := by
  rw [read_eq hu, h.walk_join hrel (.inr rfl), walk_more_links hle hlinks,
    Path.endsInSlash_join hrel hne]

theorem read_join_absolute {fs : FileSystem} {base path : String} {links : Nat}
    (hle : links ≤ linkLimit) (hu : IsUsable (Path.join base path))
    (habs : Path.isAbsolute path = true)
    (hlinks : walk fs.root true links [] (Path.names path) ≠ .error .tooManyLinks) :
    fs.read (Path.join base path) = (walk fs.root true links [] (Path.names path)).bind
      (Place.contents (Path.endsInSlash path)) := by
  have hjoin : Path.join base path = path := by simp [Path.join, habs]
  have hstart : fs.startOf path = [] := by simp [startOf, habs]
  rw [hjoin] at hu ⊢
  rw [read_eq hu, hstart, walk_more_links hle hlinks]

end FileSystem

namespace Site

variable {site : Site} {job : Job} {plans : List Plan} {before files : FileSystem}
  {manifest path : String} {links : Nat} {workspace : Workspace}

def start (site : Site) (manifest : String) : Location :=
  if Path.isAbsolute manifest then [] else site.source

/-- How the look-up of a manifest leads through the package root. -/
def route (site : Site) (links : Nat) (manifest : String) : Route :=
  if Path.isAbsolute manifest then .shared
  else .ofWalk (.directory site.entries) links [] (Path.names manifest)

def reading (site : Site) (files : FileSystem) (links : Nat) (manifest : String) :
    Except FileError Bytes :=
  (walk files.root true links (site.start manifest) (Path.names manifest)).bind
    (Place.contents (Path.endsInSlash manifest))

/-- The look-up of a manifest in the package root asks for nothing that an execution changes, passes
no more than a number of links, and does not climb above the package root. -/
structure Consults (site : Site) (before : FileSystem) (links : Nat) (manifest : String) :
    Prop where
  spares : Spares (site.Changes before) before.root links (site.start manifest)
    (Path.names manifest)
  fewLinks : walk before.root true links (site.start manifest) (Path.names manifest) ≠
    .error .tooManyLinks
  stays : site.route links manifest ≠ .climbs

/-- A path to the package root that leaves a manifest enough bytes and a number of links. -/
structure Reaches (site : Site) (files : FileSystem) (links : Nat) (manifest path : String) :
    Prop where
  nul : Char.ofNat 0 ∉ path.toList
  size : (Path.join path manifest).utf8ByteSize < pathLimit
  resolves : ∃ left, links ≤ left ∧ Resolves (fun _ => False) files path left site.source

/-- A relative manifest whose look-up does not leave the package root is consulted. -/
theorem Holds.consults (hsite : site.Holds job plans before)
    (hrel : Path.isAbsolute manifest = false)
    (hinside : staysInside (.directory site.entries) links [] (Path.names manifest))
    (hfew : walk (.directory site.entries) true links [] (Path.names manifest) ≠
      .error .tooManyLinks) : site.Consults before links manifest := by
  have hstart : site.start manifest = site.source := by simp [start, hrel]
  have hwalk : walk before.root true links (site.source ++ []) (Path.names manifest) = _ :=
    walk_inside hsite.source_eq hinside
  have hpassed := passed_inside hsite.source_eq hinside
  rw [List.append_nil] at hwalk hpassed
  refine ⟨⟨?_, ?_⟩, ?_, ?_⟩
  · intro l hl
    rw [hstart] at hl
    obtain ⟨rest, rfl⟩ := hpassed l hl
    exact hsite.not_changes_source rest
  · intro place hplace rest
    rw [hstart, hwalk] at hplace
    cases hresult : walk (.directory site.entries) true links [] (Path.names manifest) with
    | error e =>
      rw [hresult] at hplace
      cases hplace
    | ok inner =>
      rw [hresult] at hplace
      obtain rfl := Except.ok.inj hplace
      have hbelow : (inner.below site.source).location = site.source ++ inner.location := by
        cases inner <;> rfl
      rw [hbelow, List.append_assoc]
      exact hsite.not_changes_source _
  · rw [hstart, hwalk]
    cases hresult : walk (.directory site.entries) true links [] (Path.names manifest) with
    | error e => simpa [Except.map, hresult] using hfew
    | ok inner => simp [Except.map]
  · rw [route, hrel]
    exact Route.ofWalk_ne_climbs hinside

theorem isUsable_join (hbase : Char.ofNat 0 ∉ path.toList)
    (hnul : Char.ofNat 0 ∉ manifest.toList) (hne : manifest ≠ "")
    (hsize : (Path.join path manifest).utf8ByteSize < pathLimit) :
    IsUsable (Path.join path manifest) where
  nul := Path.not_mem_toList_join (by decide) hbase hnul
  nonempty := Path.join_ne_empty hne path
  size := hsize

theorem Reaches.read_eq (h : site.Reaches files links manifest path)
    (hnul : Char.ofNat 0 ∉ manifest.toList) (hne : manifest ≠ "")
    (hlinks : site.reading files links manifest ≠ .error .tooManyLinks) :
    files.read (Path.join path manifest) = site.reading files links manifest := by
  have hu := isUsable_join h.nul hnul hne h.size
  obtain ⟨left, hle, hresolves⟩ := h.resolves
  have hwalk := mt (bind_contents_eq_tooManyLinks _).mpr hlinks
  unfold reading start at hlinks hwalk ⊢
  cases habs : Path.isAbsolute manifest with
  | true =>
    simp only [habs, if_true] at hwalk ⊢
    exact read_join_absolute (Nat.le_trans hle hresolves.leads.links_le) hu habs hwalk
  | false =>
    simp only [habs, Bool.false_eq_true, if_false] at hwalk ⊢
    exact read_join hresolves hle hu habs hne hwalk

/-- The look-up gives the same as long as the execution changes nothing else than its own. -/
theorem Consults.reading_eq (h : site.Consults before links manifest)
    (hkept : site.Kept before files) :
    site.reading files links manifest = site.reading before links manifest ∧
      site.reading before links manifest ≠ .error .tooManyLinks :=
  ⟨h.spares.contents_eq hkept.changes _, mt (bind_contents_eq_tooManyLinks _).mp h.fewLinks⟩

theorem Reaches.later (h : site.Reaches before links manifest job.directory)
    (hsite : site.Holds job plans before) (hkept : site.Kept before files) :
    site.Reaches files links manifest job.directory := by
  obtain ⟨left, hle, hleft⟩ := h.resolves
  obtain ⟨_, hs⟩ := hsite.source
  obtain ⟨rfl, -⟩ := hs.leads.unique hleft.leads
  exact ⟨h.nul, h.size, _, hle, (hsite.resolves_later hkept hs).mono fun _ => False.elim⟩

/-- The cache key and the preview look at the same contents. -/
theorem Consults.read_later (h : site.Consults before links manifest)
    (hsite : site.Holds job plans before) (hkept : site.Kept before files)
    (hne : manifest ≠ "") (hreaches : site.Reaches before links manifest path)
    (hjob : site.Reaches before links manifest job.directory) :
    files.read (Path.join job.directory manifest) = before.read (Path.join path manifest) := by
  by_cases hnul : Char.ofNat 0 ∈ manifest.toList
  · rw [read_of_nul (Path.mem_toList_join hnul _), read_of_nul (Path.mem_toList_join hnul _)]
  · obtain ⟨hsame, hlinks⟩ := h.reading_eq hkept
    rw [hreaches.read_eq hnul hne hlinks,
      (hjob.later hsite hkept).read_eq hnul hne (hsame ▸ hlinks), hsame]

theorem Consults.read_copy (h : site.Consults before links manifest)
    (hsite : site.Holds job plans before) (hkept : site.Kept before files)
    (hhouses : site.Houses job before files workspace)
    (hcopy : files.root.get? (site.home workspace) =
      some (.directory (Workspace.pruned site.entries)))
    (hle : links ≤ site.links) (hnul : Char.ofNat 0 ∉ manifest.toList) (hne : manifest ≠ "")
    (hsize : (Path.join workspace.path manifest).utf8ByteSize < pathLimit) :
    files.read (Path.join workspace.path manifest) =
      (site.route links manifest).copied (site.reading before links manifest) := by
  obtain ⟨hresolves, hbase, -⟩ := hhouses.resolves hsite hkept
  have hu := isUsable_join hbase.nul hnul hne hsize
  obtain ⟨hsame, hlinks⟩ := h.reading_eq hkept
  rw [← hsame] at hlinks ⊢
  have hwalk := mt (bind_contents_eq_tooManyLinks _).mpr hlinks
  have hstays := h.stays
  unfold reading start at hlinks hwalk ⊢
  unfold route at hstays ⊢
  cases habs : Path.isAbsolute manifest with
  | true =>
    simp only [habs, if_true] at hwalk ⊢
    exact read_join_absolute (Nat.le_trans hle hresolves.leads.links_le) hu habs hwalk
  | false =>
    simp only [habs, Bool.false_eq_true, if_false] at hlinks hstays ⊢
    have hread := Workspace.read_walk_copy (Path.endsInSlash manifest)
      (hsite.source_get? hkept) hcopy hsite.tree (Workspace.mirrors_nil site.entries) hstays
    rw [List.append_nil, List.append_nil] at hread
    rw [← hread]
    refine read_join hresolves hle hu habs hne ?_
    rw [ne_eq, ← bind_contents_eq_tooManyLinks (Path.endsInSlash manifest), hread]
    cases hroute : Route.ofWalk (.directory site.entries) links [] (Path.names manifest) with
    | shared => exact hlinks
    | climbs => exact absurd hroute hstays
    | prunes => simp [Route.copied]

end Site

end BuildMatrix
