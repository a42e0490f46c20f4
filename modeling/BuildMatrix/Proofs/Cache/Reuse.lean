import BuildMatrix.Cache.Resolution
import BuildMatrix.Proofs.Cache.Entries
import BuildMatrix.Proofs.Cache.RoundTrip

/-!
# Caches that are used again

An entry that was stored stays the only one of its key, whatever is saved and restored afterwards. An
exact look-up finds it before any other entry is looked for, so every later restore from the key
gives the files that were saved, and every later save of the key is refused.
-/

namespace BuildMatrix

open FileSystem

namespace CacheStore

/-- An entry is in the store, and no other one of its key is. -/
structure Keeps (store : CacheStore) (entry : CacheEntry) : Prop where
  valid : store.Valid
  working : store.failing = []
  mem : entry ∈ store.entries
  only : ∀ other ∈ store.entries, other.key = entry.key → other = entry

section
variable {store next : CacheStore} {entry other : CacheEntry} {key : String}
  {outcome : PutOutcome}

theorem mem_of_get (h : store.get key = .ok (some entry)) :
    entry ∈ store.entries ∧ entry.key = key := by
  obtain ⟨contents, failing⟩ := store
  unfold get perform at h
  split at h
  · cases h
  · cases contents with
    | log log =>
        have hfind : (log.entries.find? fun e => e.key == key) = some entry := Except.ok.inj h
        exact ⟨List.mem_of_find?_eq_some hfind, by simpa using List.find?_some hfind⟩
    | table table =>
        have hhead : (table.select fun row => row.key == key).head?.map EntryRow.entry =
            some entry := Except.ok.inj h
        obtain ⟨row, hrow, rfl⟩ := Option.map_eq_some_iff.mp hhead
        obtain ⟨hmem, hkey⟩ := EntryTable.mem_select.mp (List.mem_of_head? hrow)
        have hkey : row.key = key := by simpa using hkey
        exact ⟨EntryTable.mem_entries.mpr ⟨row, hmem, rfl⟩, hkey⟩

theorem put_of_has (hw : store.failing = []) (h : store.log.Has entry.key) :
    store.put entry = .ok (store, .alreadyExists) := by
  refine (perform_of_working hw _ _).trans (congrArg Except.ok ?_)
  obtain ⟨contents, failing⟩ := store
  cases contents with
  | log log =>
      have hput : log.put entry = (log, .alreadyExists) := EntryLog.put_of_has h
      simp only [hput]
  | table table =>
      have hany : (table.rows.any fun row => row.key == entry.key) = true := by
        simpa using EntryTable.has_iff.mp h
      simp only [EntryTable.put, hany, if_true]

theorem keeps_of_put (hv : store.Valid) (hw : store.failing = [])
    (hput : store.put entry = .ok (next, .stored)) : next.Keeps entry := by
  obtain ⟨written, hwritten, hlog, hvalid, hworking⟩ := put_eq hv hw entry
  rw [hwritten] at hput
  obtain ⟨rfl, hstored⟩ := Prod.mk.inj (Except.ok.inj hput)
  have hnew := EntryLog.put_stored_iff.mp hstored
  rw [EntryLog.put_of_not_has hnew] at hlog
  have hentries : written.entries = store.entries ++ [entry] := congrArg EntryLog.entries hlog
  refine ⟨hvalid, hworking, by simp [hentries], fun other hother hkey => ?_⟩
  rw [hentries] at hother
  rcases List.mem_append.mp hother with hother | hother
  · exact absurd ⟨other, hother, hkey⟩ hnew
  · exact List.mem_singleton.mp hother

theorem Keeps.has (h : store.Keeps entry) : store.log.Has entry.key := ⟨entry, h.mem, rfl⟩

theorem Keeps.get (h : store.Keeps entry) : store.get entry.key = .ok (some entry) := by
  obtain ⟨found, hget, hsome⟩ := get_isSome_iff h.working entry.key
  obtain ⟨other, rfl⟩ := Option.isSome_iff_exists.mp (hsome.mpr h.has)
  obtain ⟨hmem, hkey⟩ := mem_of_get hget
  rw [hget, h.only other hmem hkey]

theorem Keeps.put (h : store.Keeps entry) (hput : store.put other = .ok (next, outcome)) :
    next.Keeps entry := by
  by_cases hold : store.log.Has other.key
  · rw [put_of_has h.working hold] at hput
    obtain ⟨rfl, -⟩ := Prod.mk.inj (Except.ok.inj hput)
    exact h
  · obtain ⟨written, hwritten, hlog, hvalid, hworking⟩ := put_eq h.valid h.working other
    rw [hwritten] at hput
    obtain ⟨rfl, -⟩ := Prod.mk.inj (Except.ok.inj hput)
    rw [EntryLog.put_of_not_has hold] at hlog
    have hentries : written.entries = store.entries ++ [other] := congrArg EntryLog.entries hlog
    refine ⟨hvalid, hworking, by simp [hentries, h.mem], fun e he hkey => ?_⟩
    rw [hentries] at he
    rcases List.mem_append.mp he with he | he
    · exact h.only e he hkey
    · obtain rfl := List.mem_singleton.mp he
      exact absurd (hkey ▸ h.has) hold

end

section
variable {store : CacheStore} {entry : CacheEntry} {key : CacheKey}

/-- A save leaves the store alone or is a write of the packed directory. -/
theorem save_cases (store : CacheStore) (files : FileSystem) (key : CacheKey)
    (restored : CacheStatus) (directory : String) (now : Instant) :
    store.save files key restored directory now = (store, none) ∨
      ∃ payload next outcome, Archive.pack files directory = .ok payload ∧
        store.put ⟨key.render, payload, now⟩ = .ok (next, outcome) ∧
        store.save files key restored directory now = (next, some outcome) := by
  unfold CacheStore.save
  split
  · exact .inl rfl
  · cases hpacked : Archive.pack files directory with
    | error e => exact .inl rfl
    | ok payload =>
        cases hput : store.put ⟨key.render, payload, now⟩ with
        | error e => exact .inl (by simp [hput])
        | ok result => exact .inr ⟨payload, result.1, result.2, rfl, hput, by simp [hput]⟩

theorem Keeps.save (h : store.Keeps entry) (files : FileSystem) (key : CacheKey)
    (restored : CacheStatus) (directory : String) (now : Instant) :
    (store.save files key restored directory now).1.Keeps entry := by
  rcases store.save_cases files key restored directory now with
    hsave | ⟨payload, next, outcome, -, hput, hsave⟩
  · rw [hsave]
    exact h
  · rw [hsave]
    exact h.put hput

/-- An entry of the key is found before other keys are looked for. -/
theorem Keeps.resolve (h : store.Keeps entry) (hkey : entry.key = key.render)
    (stems : List String) : store.resolve key stems = ⟨.hit, entry.payload⟩ := by
  rw [CacheStore.resolve, ← hkey, h.get]
  rfl

/-- A save of the key changes nothing, and tells so if there is something to save. -/
theorem Keeps.save_same (h : store.Keeps entry) (hkey : entry.key = key.render)
    (files : FileSystem) (restored : CacheStatus) (directory : String) (now : Instant) :
    (store.save files key restored directory now).1 = store ∧
      (restored ≠ .hit → (∃ payload, Archive.pack files directory = .ok payload) →
        store.save files key restored directory now = (store, some .alreadyExists)) := by
  have hput (payload : Bytes) : store.put ⟨key.render, payload, now⟩ =
      .ok (store, .alreadyExists) := put_of_has h.working (hkey ▸ h.has)
  constructor
  · rcases store.save_cases files key restored directory now with
      hsave | ⟨payload, next, outcome, -, hnext, hsave⟩
    · rw [hsave]
    · rw [hput payload, Except.ok.injEq, Prod.mk.injEq] at hnext
      rw [hsave, ← hnext.1]
  · rintro hne ⟨payload, hpacked⟩
    unfold CacheStore.save
    split
    · exact absurd rfl hne
    · simp only [hpacked, hput payload]

end

end CacheStore

/-- A use of a store: a directory is saved or restored, or files change otherwise. -/
inductive CacheUse where
  | save (key : CacheKey) (restored : CacheStatus) (directory : String) (now : Instant)
  | restore (key : CacheKey) (stems : List String) (directory : String)
  | change (files : FileSystem)

namespace CacheUse

def after (store : CacheStore) (files : FileSystem) : CacheUse → CacheStore × FileSystem
  | save key restored directory now => ((store.save files key restored directory now).1, files)
  | restore key stems directory => (store, (store.restore files key stems directory).1)
  | change files => (store, files)

def afterAll (store : CacheStore) (files : FileSystem) : List CacheUse → CacheStore × FileSystem
  | [] => (store, files)
  | use :: rest => afterAll (use.after store files).1 (use.after store files).2 rest

theorem keeps_after {store : CacheStore} {entry : CacheEntry} (h : store.Keeps entry)
    (files : FileSystem) (use : CacheUse) : (use.after store files).1.Keeps entry := by
  cases use with
  | save key restored directory now => exact h.save files key restored directory now
  | restore key stems directory => exact h
  | change files => exact h

theorem keeps_afterAll {store : CacheStore} {entry : CacheEntry} (h : store.Keeps entry)
    (files : FileSystem) (uses : List CacheUse) : (afterAll store files uses).1.Keeps entry := by
  induction uses generalizing store files with
  | nil => exact h
  | cons use rest ih => exact ih (keeps_after h files use) _

end CacheUse

namespace CacheStore

/-- A directory that was stored under a key is what is restored from the key after every sequence of
uses of the store, if the paths can be used. No later save of the key changes the store, and each
that has something to save is told so. -/
theorem restores_what_was_stored {store stored : CacheStore} {files : FileSystem} {key : CacheKey}
    {status : CacheStatus} {directory : String} {now : Instant} {tree : Entries}
    (hv : store.Valid) (hw : store.failing = [])
    (hdirectory : files.node? directory = some (.directory tree)) (ht : tree.IsTree)
    (hsave : store.save files key status directory now = (stored, some .stored))
    (uses : List CacheUse) {later : CacheStore} {files' : FileSystem}
    (hlater : CacheUse.afterAll stored files uses = (later, files')) :
    (∀ stems target location, Reaches files' target location → files'.root.Vacant location →
      (∀ below contents, (Node.directory tree).contentsAt below = some contents →
        IsUsable (Path.join target (Text.joinWith "/" below))) →
      ∃ restored : FileSystem, later.restore files' key stems target = (restored, .hit) ∧
        ∀ below, restored.root.contentsAt (location ++ below) =
          (Node.directory tree).contentsAt below) ∧
    ∀ status directory now, (later.save files' key status directory now).1 = later ∧
      (status ≠ .hit → (∃ payload, Archive.pack files' directory = .ok payload) →
        later.save files' key status directory now = (later, some .alreadyExists)) := by
  -- The save was a write of the packed directory.
  have hput : store.put ⟨key.render, (Archive.ofNode (.directory tree)).encode, now⟩ =
      .ok (stored, .stored) := by
    rcases store.save_cases files key status directory now with
      hnone | ⟨payload, next, outcome, hpacked, hput, hsaved⟩
    · rw [hnone] at hsave
      cases hsave
    · rw [hsaved] at hsave
      cases hsave
      obtain ⟨-, rfl⟩ := (Archive.collects_pack hdirectory ht).ok_iff.mp hpacked
      exact hput
  have hkeeps := CacheUse.keeps_afterAll (keeps_of_put hv hw hput) files uses
  rw [hlater] at hkeeps
  constructor
  · intro stems target location hreaches hvacant husable
    obtain ⟨root, hrestored, hover, -, -⟩ := Archive.restore_ofNode ht hreaches husable
      (hvacant.admits_contents hreaches.isOpen tree)
    refine ⟨{ files' with root := root }, ?_,
      hover.contentsAt_eq (hvacant.contentsAt_eq_none hreaches.isOpen)⟩
    rw [CacheStore.restore, hkeeps.resolve rfl, Resolution.restore, hrestored]
  · exact hkeeps.save_same rfl files'

open Archive (wheels wheelHost shortHost deepLocation linkedHost)

def wheelKey : CacheKey := ⟨"Linux-pip", "00"⟩

/-- Saves and restores of the key and of another one, and a change of files that undoes them. -/
def laterUses : List CacheUse :=
  [.restore wheelKey [] "/t", .save wheelKey .miss "/t" .epoch,
    .save ⟨"Linux", "00"⟩ .miss "/t/wheels" .epoch, .restore ⟨"Linux", "00"⟩ [] "/a",
    .change wheelHost]

theorem restores_what_was_stored_wheels :
    ∃ stored later : CacheStore,
      inMemory.save wheelHost wheelKey .miss "/a" .epoch = (stored, some .stored) ∧
      CacheUse.afterAll stored wheelHost laterUses = (later, wheelHost) ∧
      (∃ restored : FileSystem,
        later.restore wheelHost wheelKey ["Linux"] "/t" = (restored, .hit) ∧
          ∀ below, restored.root.contentsAt (["t"] ++ below) =
            (Node.directory wheels).contentsAt below) ∧
      later.save wheelHost wheelKey (.partialHit "Linux-00") "/t" .epoch =
        (later, some .alreadyExists) := by
  have hsave : inMemory.save wheelHost wheelKey .miss "/a" .epoch =
      ((inMemory.save wheelHost wheelKey .miss "/a" .epoch).1, some .stored) := rfl
  have hlater : CacheUse.afterAll (inMemory.save wheelHost wheelKey .miss "/a" .epoch).1 wheelHost
      laterUses = ((CacheUse.afterAll (inMemory.save wheelHost wheelKey .miss "/a" .epoch).1
        wheelHost laterUses).1, wheelHost) := rfl
  have hlookup : wheelHost.lookup true "/t" = .ok (.present ["t"] (.directory .nil)) := rfl
  have hdirectory : wheelHost.node? "/a" = some (.directory wheels) := rfl
  obtain ⟨hrestores, hrefuses⟩ := restores_what_was_stored valid_inMemory rfl hdirectory
    (by decide +kernel) hsave laterUses hlater
  exact ⟨_, _, hsave, hlater,
    hrestores ["Linux"] "/t" ["t"] (reaches_of_lookup hlookup) (Node.vacant_of_empty rfl)
      Archive.isUsable_wheels,
    (hrefuses (.partialHit "Linux-00") "/t" .epoch).2 (by simp) ⟨_, rfl⟩⟩

/-- What was stored is not restored to a missing directory if the path of a file becomes too long,
nor if the path of the directory goes up behind a missing name and leads to a file. -/
theorem misses_what_was_stored :
    ((inMemory.save shortHost wheelKey .miss "/a" .epoch).2 = some .stored ∧
      Reaches shortHost (Path.ofLocation deepLocation) deepLocation ∧
      (Path.ofLocation deepLocation).utf8ByteSize < pathLimit ∧
      shortHost.root.kindAt deepLocation = none ∧
      ((inMemory.save shortHost wheelKey .miss "/a" .epoch).1.restore shortHost wheelKey []
        (Path.ofLocation deepLocation)).2 = .miss) ∧
    ((inMemory.save linkedHost wheelKey .miss "/a" .epoch).2 = some .stored ∧
      linkedHost.isFile "/m/../f" = false ∧ linkedHost.isDirectory "/m/../f" = false ∧
      ((inMemory.save linkedHost wheelKey .miss "/a" .epoch).1.restore linkedHost wheelKey []
        "/m/../f").2 = .miss) := by
  have hsize : (Path.ofLocation deepLocation).utf8ByteSize < pathLimit := by
    rw [Archive.utf8ByteSize_deepLocation]
    decide
  have hresolve : (inMemory.save shortHost wheelKey .miss "/a" .epoch).1.resolve wheelKey [] =
      ⟨.hit, Archive.shortPayload⟩ := by
    simp only [CacheStore.save, Archive.pack_shortHost]
    rfl
  refine ⟨⟨rfl, Archive.reaches_deepLocation, hsize, Archive.kindAt_deepLocation, ?_⟩,
    by decide +kernel⟩
  rw [CacheStore.restore, hresolve, Resolution.restore]
  split
  · next files count hrestored =>
      have hfailed := Archive.restore_deepLocation count
      rw [hrestored] at hfailed
      exact absurd rfl hfailed
  · rfl

end CacheStore

end BuildMatrix
