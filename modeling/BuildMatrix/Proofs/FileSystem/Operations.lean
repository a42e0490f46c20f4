import BuildMatrix.FileSystem.Operations
import BuildMatrix.Proofs.FileSystem.Path
import BuildMatrix.Proofs.FileSystem.Walk

/-!
# What operations on files change

An operation that succeeds changes the node at one location, the one where the look-up of its path
ends. Changes are confined to a region if all that is outside of it stays as it was, apart from the
entries of the directories above the region. What leads through unchanged places leads to the same
location afterwards.
-/

namespace BuildMatrix.FileSystem

open Node (kindAt)

def startOf (fs : FileSystem) (path : String) : Location :=
  if Path.isAbsolute path then [] else fs.workingDirectory

structure IsUsable (path : String) : Prop where
  nul : Char.ofNat 0 ∉ path.toList
  nonempty : path ≠ ""
  size : path.utf8ByteSize < pathLimit

instance (path : String) : Decidable (IsUsable path) :=
  decidable_of_iff (Char.ofNat 0 ∉ path.toList ∧ path ≠ "" ∧ path.utf8ByteSize < pathLimit)
    ⟨fun ⟨hnul, h, hsize⟩ => ⟨hnul, h, hsize⟩, fun h => ⟨h.nul, h.nonempty, h.size⟩⟩

section
variable {fs fs' : FileSystem} {follow : Bool} {path : String} {place : Place}

theorem lookup_of_isUsable (h : IsUsable path) : fs.lookup follow path =
    match walk fs.root (follow || Path.endsInSlash path) linkLimit (fs.startOf path)
      (Path.names path) with
    | .ok (.present location node) =>
      match node with
      | .directory _ => .ok (.present location node)
      | _ =>
        if Path.endsInSlash path then .error .notDirectory else .ok (.present location node)
    | result => result := by
  have hempty : path.isEmpty = false := by simpa using h.nonempty
  unfold lookup
  rw [if_neg (by simpa using h.nul), if_neg (by simp [hempty]), if_neg (by simpa using h.size)]
  rfl

theorem isUsable_of_lookup (h : fs.lookup follow path = .ok place) : IsUsable path := by
  unfold lookup at h
  split at h
  · cases h
  next hnul =>
  split at h
  · cases h
  next hempty =>
  split at h
  · cases h
  next hsize =>
  exact ⟨by simpa using hnul, by simpa using hempty, by omega⟩

/-- Without a slash at the end, looking up a path is walking along its names. -/
theorem lookup_eq_walk (h : IsUsable path) (hslash : Path.endsInSlash path = false) :
    fs.lookup follow path = walk fs.root follow linkLimit (fs.startOf path) (Path.names path) := by
  rw [lookup_of_isUsable h, hslash, Bool.or_false]
  split
  · next location node hw =>
      rw [hw]
      cases node <;> rfl
  · rfl

theorem walk_of_lookup (h : fs.lookup follow path = .ok place) :
    walk fs.root (follow || Path.endsInSlash path) linkLimit (fs.startOf path)
      (Path.names path) = .ok place := by
  rw [lookup_of_isUsable (isUsable_of_lookup h)] at h
  split at h
  · next location node hw =>
      rw [hw]
      split at h
      · exact h
      · split at h
        · cases h
        · exact h
  · exact h

theorem found_of_lookup (h : fs.lookup follow path = .ok place) : Found fs.root place :=
  walk_found (walk_of_lookup h)

theorem exists_lookup_of_node? {node : Node} (h : fs.node? path = some node) :
    ∃ location, fs.lookup true path = .ok (.present location node) := by
  unfold node? at h
  split at h
  · next location found hl =>
      cases h
      exact ⟨location, hl⟩
  · cases h

theorem exists_node?_of_isDirectory (h : fs.isDirectory path) :
    ∃ entries, fs.node? path = some (.directory entries) := by
  unfold isDirectory at h
  split at h
  · next entries hnode => exact ⟨entries, hnode⟩
  · cases h

theorem makeDirectory_eq (fs : FileSystem) (path : String) :
    fs.makeDirectory path = match fs.lookup false path with
      | .error e => .error e
      | .ok (.present _ _) => .error .exists
      | .ok (.absent location) => .ok (fs.placeAt location (.directory .nil)) := by
  unfold makeDirectory
  rcases fs.lookup false path with _ | (_ | _) <;> rfl

theorem makeLink_eq (fs : FileSystem) (target path : String) :
    fs.makeLink target path = match fs.lookup false path with
      | .error e => .error e
      | .ok (.present _ _) => .error .exists
      | .ok (.absent location) => .ok (fs.placeAt location (.link target)) := by
  unfold makeLink
  rcases fs.lookup false path with _ | (_ | _) <;> rfl

theorem write_eq (fs : FileSystem) (path : String) (contents : Bytes) :
    fs.write path contents = match fs.lookup true path with
      | .error e => .error e
      | .ok (.present location (.file _ executable)) =>
        .ok (fs.placeAt location (.file contents executable))
      | .ok (.present _ _) => .error .isDirectory
      | .ok (.absent location) =>
        if Path.endsInSlash path then .error .isDirectory
        else .ok (fs.placeAt location (.file contents false)) := by
  unfold write
  rcases fs.lookup true path with _ | (⟨_, _ | _ | _⟩ | _) <;> rfl

theorem setExecutable_eq (fs : FileSystem) (path : String) (executable : Bool) :
    fs.setExecutable path executable = match fs.lookup true path with
      | .error e => .error e
      | .ok (.present location (.file contents _)) =>
        .ok (fs.placeAt location (.file contents executable))
      | .ok (.present _ _) => .ok fs
      | .ok (.absent _) => .error .missing := by
  unfold setExecutable
  rcases fs.lookup true path with _ | (⟨_, _ | _ | _⟩ | _) <;> rfl

theorem readDirectory_eq (fs : FileSystem) (path : String) :
    fs.readDirectory path = match fs.lookup true path with
      | .error e => .error e
      | .ok (.present _ (.directory entries)) => .ok entries
      | .ok (.present _ _) => .error .notDirectory
      | .ok (.absent _) => .error .missing := by
  unfold readDirectory
  rcases fs.lookup true path with _ | (⟨_, _ | _ | _⟩ | _) <;> rfl

theorem copyFile_eq (fs : FileSystem) (source target : String) :
    fs.copyFile source target = match fs.lookup true source with
      | .error e => .error e
      | .ok (.present _ (.file contents executable)) =>
        (fs.write target contents).bind (·.setExecutable target executable)
      | .ok (.present _ _) => .error .notFile
      | .ok (.absent _) => .error .missing := by
  unfold copyFile
  rcases fs.lookup true source with _ | (⟨_, _ | _ | _⟩ | _) <;> rfl

theorem readLink_eq (fs : FileSystem) (path : String) :
    fs.readLink path = match fs.lookup false path with
      | .error e => .error e
      | .ok (.present _ (.link target)) => .ok target
      | .ok (.present _ _) => .error .badArgument
      | .ok (.absent _) => .error .missing := by
  unfold readLink
  rcases fs.lookup false path with _ | (⟨_, _ | _ | _⟩ | _) <;> rfl

theorem makeDirectory_ok (h : fs.makeDirectory path = .ok fs') :
    ∃ location, fs.lookup false path = .ok (.absent location) ∧
      fs' = fs.placeAt location (.directory .nil) := by
  rw [makeDirectory_eq] at h
  split at h
  · cases h
  · cases h
  · next location hl => exact ⟨location, hl, (Except.ok.inj h).symm⟩

theorem write_ok {contents : Bytes} (h : fs.write path contents = .ok fs') :
    ∃ place executable, fs.lookup true path = .ok place ∧
      fs' = fs.placeAt place.location (.file contents executable) := by
  rw [write_eq] at h
  split at h
  · cases h
  · next location old executable hl => exact ⟨_, executable, hl, (Except.ok.inj h).symm⟩
  · cases h
  · next location hl =>
      split at h
      · cases h
      · exact ⟨_, false, hl, (Except.ok.inj h).symm⟩

theorem ensureDirectory_fst (fs : FileSystem) (path : String) :
    (fs.ensureDirectory path).1 = fs ∨ ∃ location, fs.lookup false path = .ok (.absent location) ∧
      (fs.ensureDirectory path).1 = fs.placeAt location (.directory .nil) := by
  unfold ensureDirectory
  cases hm : fs.makeDirectory path with
  | error e => exact .inl rfl
  | ok fs' => exact .inr (makeDirectory_ok hm)

end

/-- What is kept whenever a directory above a path, or the path itself, is made, is kept when all
missing ones are made. -/
theorem makeDirectoriesWithin_induction {P : FileSystem → Prop} {path : List Char}
    (step : ∀ fs front location, P fs → Path.IsFront front.toList path →
      fs.lookup false front = .ok (.absent location) → P (fs.placeAt location (.directory .nil)))
    {fuel : Nat} {fs : FileSystem} {front : String} (hfront : Path.IsFront front.toList path)
    (start : P fs) : P (fs.makeDirectoriesWithin fuel front).1 := by
  have hensure (fs : FileSystem) (front : String) (hfront : Path.IsFront front.toList path)
      (start : P fs) : P (fs.ensureDirectory front).1 := by
    rcases fs.ensureDirectory_fst front with hsame | ⟨location, hl, hmade⟩
    · rw [hsame]
      exact start
    · rw [hmade]
      exact step fs front location start hfront hl
  induction fuel generalizing fs front with
  | zero =>
      unfold makeDirectoriesWithin
      split
      · exact start
      · exact hensure fs front hfront start
  | succ fuel ih =>
      unfold makeDirectoriesWithin
      split
      · exact start
      split
      · split
        · exact start
        · next parent hparent =>
            have hrest := ih ((Path.isFront_parent? hparent).trans hfront) start
            split
            · next hmade =>
                rw [hmade] at hrest
                exact hensure _ front hfront hrest
            · exact hrest
      · exact hensure fs front hfront start

theorem makeDirectories_induction {P : FileSystem → Prop} {fs : FileSystem} {path : String}
    (start : P fs) (step : ∀ fs front location, P fs → Path.IsFront front.toList path.toList →
      fs.lookup false front = .ok (.absent location) →
      P (fs.placeAt location (.directory .nil))) : P (fs.makeDirectories path).1 :=
  makeDirectoriesWithin_induction step (.refl _) start

/-- Unless the directory above it is missing, a directory is made at once or not at all. -/
theorem makeDirectoriesWithin_of_ne_missing {fs : FileSystem} {path : String} (hne : path ≠ "")
    (hmake : fs.makeDirectory path ≠ .error .missing) (fuel : Nat) :
    fs.makeDirectoriesWithin fuel path = fs.ensureDirectory path := by
  have hempty : path.isEmpty = false := by simpa using hne
  cases fuel with
  | zero => simp [makeDirectoriesWithin, hempty]
  | succ fuel =>
      rw [makeDirectoriesWithin, hempty]
      split
      · contradiction
      · split
        · exact absurd ‹_› hmake
        · rfl

theorem makeDirectoriesWithin_of_present {fs : FileSystem} {path : String}
    (hd : fs.isDirectory path) {place : Place} (hl : fs.lookup false path = .ok place)
    (hp : ∀ location, place ≠ .absent location) (fuel : Nat) :
    fs.makeDirectoriesWithin fuel path = (fs, .ok ()) := by
  obtain ⟨location, node, rfl⟩ : ∃ location node, place = .present location node := by
    cases place with
    | present location node => exact ⟨location, node, rfl⟩
    | absent location => exact absurd rfl (hp location)
  have hmake : fs.makeDirectory path = .error .exists := by
    rw [makeDirectory_eq, hl]
  rw [makeDirectoriesWithin_of_ne_missing (isUsable_of_lookup hl).nonempty (by simp [hmake])]
  simp [ensureDirectory, hmake, hd]

theorem makeDirectories_of_present {fs : FileSystem} {path : String} (hd : fs.isDirectory path)
    {place : Place} (hl : fs.lookup false path = .ok place)
    (hp : ∀ location, place ≠ .absent location) : fs.makeDirectories path = (fs, .ok ()) :=
  makeDirectoriesWithin_of_present hd hl hp _

theorem ensureDirectory_of_absent {fs : FileSystem} {path : String} {location : Location}
    (hl : fs.lookup false path = .ok (.absent location)) :
    fs.ensureDirectory path = (fs.placeAt location (.directory .nil), .ok ()) := by
  have hmake : fs.makeDirectory path = .ok (fs.placeAt location (.directory .nil)) := by
    rw [makeDirectory_eq, hl]
  simp [ensureDirectory, hmake]

/-- A directory whose parent is there is made alone. -/
theorem makeDirectoriesWithin_of_absent {fs : FileSystem} {path : String} {location : Location}
    (hl : fs.lookup false path = .ok (.absent location)) (fuel : Nat) :
    fs.makeDirectoriesWithin fuel path = (fs.placeAt location (.directory .nil), .ok ()) := by
  have hmake : fs.makeDirectory path = .ok (fs.placeAt location (.directory .nil)) := by
    rw [makeDirectory_eq, hl]
  rw [makeDirectoriesWithin_of_ne_missing (isUsable_of_lookup hl).nonempty (by simp [hmake])]
  exact ensureDirectory_of_absent hl

theorem makeDirectories_of_absent {fs : FileSystem} {path : String} {location : Location}
    (hl : fs.lookup false path = .ok (.absent location)) :
    fs.makeDirectories path = (fs.placeAt location (.directory .nil), .ok ()) :=
  makeDirectoriesWithin_of_absent hl _

theorem makeDirectories_of_error {fs : FileSystem} {path : String} {e : FileError}
    (he : e ≠ .missing) (hl : ∀ follow, fs.lookup follow path = .error e) :
    fs.makeDirectories path = (fs, .error e) := by
  have hmake : fs.makeDirectory path = .error e := by
    rw [makeDirectory_eq, hl]
  -- The look-up of the empty path fails in another way.
  have hne : path ≠ "" := by
    rintro rfl
    exact he (Except.error.inj (hl true)).symm
  rw [makeDirectories, makeDirectoriesWithin_of_ne_missing hne (by simpa [hmake] using he)]
  simp [ensureDirectory, hmake, isDirectory, node?, hl]

theorem removeAll_cases (fs : FileSystem) (path : String) : fs.removeAll path = fs ∨
    ∃ location node, fs.lookup false path = .ok (.present location node) ∧
      fs.removeAll path = { fs with root := fs.root.remove location } := by
  unfold removeAll
  split
  · next location node hl => exact .inr ⟨location, node, hl, rfl⟩
  · exact .inl rfl

/-- A region that holds, with a location, all that is below it. -/
def IsClosed (region : Location → Prop) : Prop :=
  ∀ location below, region location → location <+: below → region below

theorem isClosed_below (top : Location) : IsClosed (top <+: ·) :=
  fun _ _ h hp => h.trans hp

/-- Outside of a region nothing changes, except for what the directories above it hold. -/
structure Confined (region : Location → Prop) (fs fs' : FileSystem) : Prop where
  workingDirectory_eq : fs'.workingDirectory = fs.workingDirectory
  kindAt_eq : ∀ location, ¬region location → fs'.root.kindAt location = fs.root.kindAt location
  get?_eq : ∀ location, (∀ rest, ¬region (location ++ rest)) →
    fs'.root.get? location = fs.root.get? location

/-- No links are in a region. -/
def Unlinked (region : Location → Prop) (fs : FileSystem) : Prop :=
  ∀ location target, region location → fs.root.kindAt location ≠ some (.link target)

section
variable {region region' : Location → Prop} {fs fs' fs'' : FileSystem} {location : Location}

theorem Confined.refl (region : Location → Prop) (fs : FileSystem) : Confined region fs fs :=
  ⟨rfl, fun _ _ => rfl, fun _ _ => rfl⟩

theorem Confined.trans (h : Confined region fs fs') (h' : Confined region fs' fs'') :
    Confined region fs fs'' where
  workingDirectory_eq := h'.workingDirectory_eq.trans h.workingDirectory_eq
  kindAt_eq l hl := (h'.kindAt_eq l hl).trans (h.kindAt_eq l hl)
  get?_eq l hl := (h'.get?_eq l hl).trans (h.get?_eq l hl)

theorem Confined.mono (h : Confined region fs fs') (hsub : ∀ l, region l → region' l) :
    Confined region' fs fs' where
  workingDirectory_eq := h.workingDirectory_eq
  kindAt_eq l hl := h.kindAt_eq l fun hr => hl (hsub l hr)
  get?_eq l hl := h.get?_eq l fun rest hr => hl rest (hsub _ hr)

theorem confined_placeAt (hclosed : IsClosed region) (hl : region location) (fs : FileSystem)
    (node : Node) : Confined region fs (fs.placeAt location node) where
  workingDirectory_eq := rfl
  kindAt_eq l hn := Node.kindAt_place (fun hp => hn (hclosed _ _ hl hp)) _ _
  get?_eq l hn := Node.get?_place_of_incomparable
    (fun hp => hn [] (by simpa using hclosed _ _ hl hp))
    (fun ⟨rest, hrest⟩ => hn rest (hrest ▸ hl)) _ _

theorem confined_placeAt_self (fs : FileSystem) (location : Location) (node : Node) :
    Confined (location <+: ·) fs (fs.placeAt location node) :=
  confined_placeAt (isClosed_below _) List.prefix_rfl fs node

theorem confined_removeAt (hclosed : IsClosed region) (hl : region location) (fs : FileSystem) :
    Confined region fs { fs with root := fs.root.remove location } where
  workingDirectory_eq := rfl
  kindAt_eq l hn := Node.kindAt_remove (fun hp => hn (hclosed _ _ hl hp)) _
  get?_eq l hn := Node.get?_remove_of_incomparable
    (fun hp => hn [] (by simpa using hclosed _ _ hl hp))
    (fun ⟨rest, hrest⟩ => hn rest (hrest ▸ hl)) _

theorem get?_place_of_found {root : Node} {place : Place} (h : Found root place) (new : Node)
    (rest : Location) : (root.place place.location new).get? (place.location ++ rest) =
      new.get? rest := by
  cases place with
  | present l node => exact Node.get?_place h new rest
  | absent l =>
      obtain ⟨parent, entries, name, rfl, -, hd, -⟩ := h
      simp only [Place.location]
      rw [Node.place_concat_of_get? hd, List.append_assoc, Node.get?_place hd,
        List.singleton_append, Node.get?_directory, Entries.find?_insert_self, Option.bind_some]

theorem unlinked_placeAt (h : Unlinked region fs) {place : Place} (hf : Found fs.root place)
    {new : Node} (hnew : ∀ rest target, new.kindAt rest ≠ some (.link target)) :
    Unlinked region (fs.placeAt place.location new) := by
  intro l target hl
  by_cases hp : place.location <+: l
  · obtain ⟨rest, rfl⟩ := hp
    simp only [placeAt, kindAt, get?_place_of_found hf]
    exact hnew rest target
  · simp only [placeAt, Node.kindAt_place hp]
    exact h l target hl

/-- A change outside of a region makes no links in it. -/
theorem Confined.unlinked (h : Confined region' fs fs') (hu : Unlinked region fs)
    (hapart : ∀ l, region l → ¬region' l) : Unlinked region fs' := by
  intro l target hl
  rw [h.kindAt_eq l (hapart l hl)]
  exact hu l target hl

end

end BuildMatrix.FileSystem
