import BuildMatrix.Cache.Resolution
import BuildMatrix.Proofs.Cache.RoundTrip
import BuildMatrix.Proofs.Cache.Unpacking

/-!
# What a miss leaves

A look-up that finds nothing, and a payload that is no archive, leave the files alone. An archive
with a path that is refused counts as a miss too, but the files before that path have been written
by then, and they stay.
-/

namespace BuildMatrix

open FileSystem

/-- The failed call on the file system, if it is one that ended the work on the archive. -/
def ArchiveError.fileError? : ArchiveError → Option FileError
  | unreadable _ cause | directory _ cause | file _ cause => some cause
  | undecodable | unsafePath _ => none

namespace Archive

theorem fileError?_of_restoreFile {files : FileSystem} {directory : String} {file : ArchivedFile}
    (hcontained : Path.isContained file.path) {e : ArchiveError}
    (h : (restoreFile files directory file).2 = .error e) : e.fileError? ≠ none := by
  rcases restoreFile_cases files directory file with ⟨-, hnot⟩ | ⟨-, parent, -, he⟩
  · exact absurd hcontained hnot
  · rcases he with ⟨cause, he⟩ | ⟨cause, he⟩ | ⟨written, he, -⟩
    · rw [he] at h
      cases h
      simp [ArchiveError.fileError?]
    · rw [he] at h
      cases h
      simp [ArchiveError.fileError?]
    · rw [he] at h
      cases h

/-- Only calls on the file system fail where no path is refused. -/
theorem fileError?_of_restoreFiles {files : FileSystem} {directory : String}
    {archived : List ArchivedFile} (hcontained : ∀ file ∈ archived, Path.isContained file.path)
    {e : ArchiveError} (h : (restoreFiles files directory archived).2 = .error e) :
    e.fileError? ≠ none := by
  induction archived generalizing files with
  | nil => cases h
  | cons file rest ih =>
    obtain ⟨hfirst, hrest⟩ := List.forall_mem_cons.mp hcontained
    rw [restoreFiles] at h
    split at h
    · exact ih hrest h
    · exact fileError?_of_restoreFile hfirst h

/-- Unpacking that fails without a failed call has come to a refused path. -/
theorem restoreFiles_of_refused {files left : FileSystem} {directory : String}
    {archived : List ArchivedFile} {e : ArchiveError}
    (h : restoreFiles files directory archived = (left, .error e)) (hcalls : e.fileError? = none) :
    restoreFiles files directory (safePart archived) = (left, .ok ()) ∧
      ∃ bad, refused? archived = some bad := by
  rw [restoreFiles_eq_safePart] at h
  cases hpart : restoreFiles files directory (safePart archived) with
  | mk written result =>
    rw [hpart] at h
    cases result with
    | error cause =>
      cases h
      have hfailed := fileError?_of_restoreFiles (fun file => isContained_of_mem_safePart)
        (congrArg Prod.snd hpart)
      exact absurd hcalls hfailed
    | ok _ =>
      cases hbad : refused? archived with
      | none =>
        rw [hbad] at h
        cases h
      | some bad =>
        rw [hbad] at h
        cases h
        exact ⟨rfl, bad, rfl⟩

end Archive

namespace CacheStore

theorem payload_of_resolve {store : CacheStore} {key : CacheKey} {stems : List String}
    (h : (store.resolve key stems).status = .miss) : (store.resolve key stems).payload = [] := by
  unfold resolve Resolution.ofLookups at h ⊢
  split
  · next hexact =>
      rw [hexact] at h
      cases h
  · next hexact =>
      rw [hexact] at h
      simp only at h
      split
      · next hothers =>
          rw [hothers] at h
          cases h
      · rfl

/--
A restore that is a miss, though no call on the file system failed, leaves the files alone unless
an archive was found. Such an archive has a path that is refused, and the files before the first of
these are there afterwards: exactly these have been written.
-/
theorem restore_of_miss {store : CacheStore} {files left : FileSystem} {key : CacheKey}
    {stems : List String} {directory : String}
    (hmiss : store.restore files key stems directory = (left, .miss))
    (hcalls : ∀ e, (Archive.restore files directory (store.resolve key stems).payload).2 =
      .error e → e.fileError? = none) :
    (Archive.decode? (store.resolve key stems).payload = none → left = files) ∧
      ∀ archive, Archive.decode? (store.resolve key stems).payload = some archive →
        (∃ bad rest, archive.files = Archive.safePart archive.files ++ bad :: rest ∧
          ¬Path.isContained bad.path) ∧
        Archive.restoreFiles files directory (Archive.safePart archive.files) = (left, .ok ()) ∧
        ∀ file ∈ Archive.safePart archive.files, left.isFile (Path.join directory file.path) := by
  generalize hpayload : (store.resolve key stems).payload = payload at hcalls ⊢
  rw [restore, Resolution.restore, hpayload, Archive.restore] at hmiss
  rw [Archive.restore] at hcalls
  by_cases hempty : payload.isEmpty
  · rw [if_pos hempty] at hmiss
    have hnil : payload = [] := List.isEmpty_iff.mp hempty
    rw [hnil, Archive.decode?_nil]
    exact ⟨fun _ => (Prod.mk.inj hmiss).1.symm, fun _ h => by cases h⟩
  have hfound : (store.resolve key stems).status ≠ .miss := by
    intro hstatus
    rw [payload_of_resolve hstatus] at hpayload
    exact hempty (hpayload ▸ rfl)
  rw [if_neg hempty] at hmiss hcalls
  cases hdecode : Archive.decode? payload with
  | none =>
    rw [hdecode] at hmiss
    exact ⟨fun _ => (Prod.mk.inj hmiss).1.symm, fun _ h => by cases h⟩
  | some archive =>
    rw [hdecode] at hmiss hcalls
    refine ⟨fun h => (by cases h), fun found h => ?_⟩
    obtain rfl := Option.some.inj h
    cases hall : Archive.restoreFiles files directory archive.files with
    | mk written result =>
      simp only [hall] at hmiss hcalls
      cases result with
      | ok _ => exact absurd (Prod.mk.inj hmiss).2 hfound
      | error e =>
        obtain rfl := (Prod.mk.inj hmiss).1
        obtain ⟨hpart, bad, hbad⟩ := Archive.restoreFiles_of_refused hall (hcalls e rfl)
        obtain ⟨rest, hrest⟩ := Archive.exists_eq_safePart_append hbad
        have hnot : ¬Path.isContained bad.path := by simpa using List.find?_some hbad
        exact ⟨⟨bad, rest, hrest, hnot⟩, hpart, fun file => Archive.isFile_of_restoreFiles hpart⟩

/-- An archive whose second path leads out of the directory. -/
def strayArchive : Archive := ⟨[⟨"a", [0x31]⟩, ⟨"../b", [0x32]⟩]⟩

def strayKey : CacheKey := ⟨"Linux-pip", "00"⟩

def strayStore : CacheStore :=
  ⟨.log ⟨[⟨"Linux-pip-00", strayArchive.encode, .epoch⟩]⟩, []⟩

def strayHost : FileSystem := ⟨.directory (.cons "t" (.directory .nil) .nil), []⟩

def strayResult : FileSystem := (strayStore.restore strayHost strayKey [] "/t").1

theorem restore_strayHost :
    strayStore.restore strayHost strayKey [] "/t" = (strayResult, .miss) ∧
      (Archive.restore strayHost "/t" (strayStore.resolve strayKey []).payload).2 =
        .error (.unsafePath "../b") ∧
      Archive.decode? (strayStore.resolve strayKey []).payload = some strayArchive := by
  have hmiss : (strayStore.restore strayHost strayKey [] "/t").2 = .miss := by decide +kernel
  refine ⟨Prod.ext rfl hmiss, by decide +kernel, by decide +kernel⟩

theorem restore_of_miss_stray :
    strayStore.restore strayHost strayKey [] "/t" = (strayResult, .miss) ∧
      Archive.restoreFiles strayHost "/t" [⟨"a", [0x31]⟩] = (strayResult, .ok ()) ∧
      strayResult.isFile "/t/a" := by
  obtain ⟨hmiss, herror, hdecode⟩ := restore_strayHost
  have hcalls : ∀ e, (Archive.restore strayHost "/t" (strayStore.resolve strayKey []).payload).2 =
      .error e → e.fileError? = none := by
    intro e he
    rw [herror] at he
    cases he
    rfl
  obtain ⟨-, hwritten, hfiles⟩ := (restore_of_miss hmiss hcalls).2 strayArchive hdecode
  exact ⟨hmiss, hwritten, hfiles ⟨"a", [0x31]⟩ (by decide)⟩

/-- A miss may leave a file where there was none, though no call on the file system failed. -/
theorem miss_leaves_stray :
    ¬∀ (store : CacheStore) (files left : FileSystem) (key : CacheKey) (stems : List String)
      (directory : String), store.restore files key stems directory = (left, .miss) →
      (∀ e, (Archive.restore files directory (store.resolve key stems).payload).2 = .error e →
        e.fileError? = none) → left = files := by
  intro hall
  obtain ⟨hmiss, herror, -⟩ := restore_strayHost
  have hsame : strayResult = strayHost := by
    refine hall strayStore strayHost strayResult strayKey [] "/t" hmiss fun e he => ?_
    rw [herror] at he
    cases he
    rfl
  have hnew : strayResult.isFile "/t/a" := by decide +kernel
  rw [hsame] at hnew
  exact absurd hnew (by decide +kernel)

end CacheStore

end BuildMatrix
