import BuildMatrix.Proofs.FileSystem.Entry

/-!
# Paths into a region

A path enters a region if its first names lead to a directory outside of the region and the next
name is that of an entry in the region. If there are no links in the region, operations on the path,
and on the directories above it that are missing, change nothing outside of the region.
-/

namespace BuildMatrix

namespace Path

theorem of_isContained {path : String} (h : isContained path) :
    isAbsolute path = false ∧ ".." ∉ names path := by
  simp only [isContained, Bool.and_eq_true, List.all_eq_true] at h
  obtain ⟨-, hall⟩ := h
  have habs : isAbsolute path = false := by
    rw [Bool.eq_false_iff]
    intro habs
    have hroot := hall .root (List.mem_of_mem_head? ((head?_components path).mpr habs))
    simp at hroot
  refine ⟨habs, fun hup => ?_⟩
  have hmem : Component.up ∈ components path := by
    have hinner {names : List String} (h : ".." ∈ names) : Component.up ∈ names.filterMap inner? :=
      List.mem_filterMap.mpr ⟨"..", h, rfl⟩
    unfold components
    simp only [habs, Bool.false_eq_true, if_false]
    split
    · next rest hn =>
        rw [hn] at hup
        exact List.mem_cons_of_mem _ (hinner (by simpa using hup))
    · exact hinner hup
  simpa using hall _ hmem

end Path

namespace FileSystem

open Node (kindAt)

/-- A path that leads to a directory and goes on with an entry in a region. -/
structure Enters (region : Location → Prop) (fs : FileSystem) (path : String) (base : Location)
    (first : String) : Prop where
  start : ¬region (fs.startOf path)
  leads : ∃ front rest links, Path.names path = front ++ first :: rest ∧ ".." ∉ rest ∧
    Leads region fs.root linkLimit (fs.startOf path) front links base
  name : first ≠ "." ∧ first ≠ ".."
  inside : region (base ++ [first])

section
variable {region : Location → Prop} {fs fs' : FileSystem} {path : String} {base : Location}
  {first : String} {place : Place}

theorem Enters.frame (h : Enters region fs path base first) (hclosed : IsClosed region)
    (hc : Confined region fs fs') : Enters region fs' path base first where
  start := by
    rw [hc.startOf_eq]
    exact h.start
  leads := by
    obtain ⟨front, rest, links, hnames, hup, hleads⟩ := h.leads
    refine ⟨front, rest, links, hnames, hup, ?_⟩
    rw [hc.startOf_eq]
    exact (hleads.frame hclosed hc.kindAt_eq h.start).1
  name := h.name
  inside := h.inside

theorem Enters.join (h : Enters region fs path base first) {relative : String}
    (hrel : Path.isAbsolute relative = false) (hup : ".." ∉ Path.names relative) :
    Enters region fs (Path.join path relative) base first where
  start := by
    rw [startOf_join hrel]
    exact h.start
  leads := by
    obtain ⟨front, rest, links, hnames, hup', hleads⟩ := h.leads
    refine ⟨front, rest ++ Path.names relative, links, ?_, ?_, ?_⟩
    · rw [Path.names_join hrel, hnames, List.append_assoc, List.cons_append]
    · simp [hup, hup']
    · rw [startOf_join hrel]
      exact hleads
  name := h.name
  inside := h.inside

/-- From the directory on, names stay in the region. -/
theorem region_of_walk {root : Node} {follow : Bool} {links : Nat} {rest : List String}
    (hclosed : IsClosed region) (hinside : region (base ++ [first]))
    (hname : first ≠ "." ∧ first ≠ "..") (hup : ".." ∉ rest)
    (hlinks : ∀ l target, region l → root.kindAt l ≠ some (.link target))
    (h : walk root follow links base (first :: rest) = .ok place) : region place.location := by
  have hfilter : (first :: rest).filter (· ≠ ".") = first :: rest.filter (· ≠ ".") :=
    List.filter_cons_of_pos (by simpa using hname.1)
  have hdown {passed : List String} (hne : passed ≠ [])
      (hp : passed <+: first :: rest.filter (· ≠ ".")) : region (base ++ passed) := by
    cases passed with
    | nil => exact absurd rfl hne
    | cons n passed =>
        obtain ⟨rfl, -⟩ := List.cons_prefix_cons.mp hp
        exact hclosed _ _ hinside ⟨passed, by simp⟩
  rw [walk_unlinked (fun passed hne hp target => ?_) (by simp [hname.2.symm, hup]) h, hfilter]
  · exact hdown (by simp) List.prefix_rfl
  · rw [hfilter] at hp
    exact hlinks _ target (hdown hne hp)

theorem Enters.region_location (h : Enters region fs path base first) (hclosed : IsClosed region)
    (hu : Unlinked region fs) {follow : Bool} (hl : fs.lookup follow path = .ok place) :
    region place.location := by
  obtain ⟨front, rest, links, hnames, hup, hleads⟩ := h.leads
  have hw := walk_of_lookup hl
  rw [hnames, hleads.walk_append (.inl (by simp))] at hw
  exact region_of_walk hclosed h.inside h.name hup hu hw

/-- What is missing above a path into the region is in the region. -/
theorem Enters.region_absent (h : Enters region fs path base first) (hclosed : IsClosed region)
    (hu : Unlinked region fs) {above : String} (hfront : Path.IsFront above.toList path.toList)
    {follow : Bool} {location : Location} (hl : fs.lookup follow above = .ok (.absent location)) :
    region location := by
  obtain ⟨front, rest, links, hnames, hup, hleads⟩ := h.leads
  have hw := walk_of_lookup hl
  have hstart : fs.startOf above = fs.startOf path := by
    rw [startOf, startOf, hfront.isAbsolute_eq (isUsable_of_lookup hl).nonempty]
  have hprefix : Path.names above <+: front ++ first :: rest := by
    rw [← hnames]
    exact hfront.names
  rw [hstart] at hw
  -- The directory that the first names lead to is not absent, and neither is any above it.
  have hfirst (hp : Path.names above <+: front) : False := by
    obtain ⟨more, rfl⟩ := hp
    obtain ⟨_, _, habove, -⟩ := hleads.split
    exact habove.not_absent hw
  rcases List.prefix_or_prefix_of_prefix hprefix (List.prefix_append front _) with hp | hp
  · exact (hfirst hp).elim
  · obtain ⟨more, hmore⟩ := hp
    rw [← hmore, List.prefix_append_right_inj] at hprefix
    cases more with
    | nil => exact (hfirst ⟨[], by simpa using hmore.symm⟩).elim
    | cons n more =>
        obtain ⟨rfl, hrest⟩ := List.cons_prefix_cons.mp hprefix
        rw [← hmore, hleads.walk_append (.inl (by simp))] at hw
        exact region_of_walk hclosed h.inside h.name (fun hm => hup (hrest.subset hm)) hu hw

/-- A change in a region that makes no links there. -/
structure Grows (region : Location → Prop) (fs fs' : FileSystem) : Prop where
  confined : Confined region fs fs'
  unlinked : Unlinked region fs'

theorem Grows.trans {fs'' : FileSystem} (h : Grows region fs fs') (h' : Grows region fs' fs'') :
    Grows region fs fs'' :=
  ⟨h.confined.trans h'.confined, h'.unlinked⟩

theorem grows_placeAt (hclosed : IsClosed region) (hu : Unlinked region fs) {follow : Bool}
    (hl : fs.lookup follow path = .ok place) (hr : region place.location) {new : Node}
    (hnew : ∀ rest target, new.kindAt rest ≠ some (.link target)) :
    Grows region fs (fs.placeAt place.location new) :=
  ⟨confined_placeAt hclosed hr _ _, unlinked_placeAt hu (found_of_lookup hl) hnew⟩

theorem Enters.makeDirectories (h : Enters region fs path base first) (hclosed : IsClosed region)
    (hu : Unlinked region fs) {above : String} (hfront : Path.IsFront above.toList path.toList) :
    Grows region fs (fs.makeDirectories above).1 := by
  refine makeDirectories_induction ⟨.refl _ _, hu⟩ fun fs' front location hgrows hf hl => ?_
  have hr := (h.frame hclosed hgrows.confined).region_absent hclosed hgrows.unlinked
    (hf.trans hfront) hl
  refine hgrows.trans (grows_placeAt hclosed hgrows.unlinked hl hr fun rest target => ?_)
  cases rest <;> simp [kindAt, Node.kind, Node.get?_directory]

theorem Enters.write (h : Enters region fs path base first) (hclosed : IsClosed region)
    (hu : Unlinked region fs) {contents : Bytes} (hw : fs.write path contents = .ok fs') :
    Grows region fs fs' := by
  obtain ⟨place, executable, hl, rfl⟩ := write_ok hw
  refine grows_placeAt hclosed hu hl (h.region_location hclosed hu hl) fun rest target => ?_
  cases rest <;> simp [kindAt, Node.kind]

end

end FileSystem

end BuildMatrix
