import BuildMatrix.Proofs.Cache.Entries
import BuildMatrix.Proofs.Text.Cut
import BuildMatrix.Proofs.Text.Utf8

/-!
# The requests to a store

A store answers each request as if it remembered every entry that it was ever asked to write: the
first entry of each key was stored, and all others were not. For a store on a table this holds as
long as no key and no start of a key has a NUL character.
-/

namespace BuildMatrix

def firstWrites : List CacheEntry → List CacheEntry
  | [] => []
  | entry :: rest => entry :: (firstWrites rest).filter fun e => e.key != entry.key

section
variable {writes : List CacheEntry} {key : String}

theorem find?_firstWrites :
    ((firstWrites writes).find? fun e => e.key == key) = writes.find? fun e => e.key == key := by
  induction writes with
  | nil => rfl
  | cons entry rest ih =>
      rw [firstWrites]
      by_cases hk : entry.key = key
      · rw [List.find?_cons_of_pos (by simpa using hk), List.find?_cons_of_pos (by simpa using hk)]
      · rw [List.find?_cons_of_neg (by simpa using hk), List.find?_cons_of_neg (by simpa using hk),
          List.find?_filter, ← ih]
        congr 1
        funext e
        by_cases he : e.key = key
        · simp [he, Ne.symm hk]
        · simp [he]

theorem has_firstWrites : EntryLog.Has ⟨firstWrites writes⟩ key ↔ EntryLog.Has ⟨writes⟩ key := by
  have hfind (entries : List CacheEntry) :
      EntryLog.Has ⟨entries⟩ key ↔ (entries.find? fun e => e.key == key).isSome := by
    simp [EntryLog.Has]
  rw [hfind, hfind, find?_firstWrites]

theorem mem_of_mem_firstWrites {entry : CacheEntry} (h : entry ∈ firstWrites writes) :
    entry ∈ writes := by
  induction writes with
  | nil => exact h
  | cons first rest ih =>
      rcases List.mem_cons.mp h with rfl | h
      · exact List.mem_cons_self
      · exact List.mem_cons_of_mem _ (ih (List.mem_filter.mp h).1)

theorem keys_distinct_firstWrites (writes : List CacheEntry) :
    (firstWrites writes).Pairwise fun a b => a.key ≠ b.key := by
  induction writes with
  | nil => exact .nil
  | cons entry rest ih =>
      refine List.pairwise_cons.mpr ⟨fun e he => ?_, ih.filter _⟩
      have hne : e.key ≠ entry.key := by simpa using (List.mem_filter.mp he).2
      exact hne.symm

/-- A write of a key that was written before is none of the first writes. -/
theorem firstWrites_concat (writes : List CacheEntry) (entry : CacheEntry) :
    firstWrites (writes ++ [entry]) = (EntryLog.put ⟨firstWrites writes⟩ entry).1.entries := by
  induction writes with
  | nil => rfl
  | cons first rest ih =>
      have hcons : firstWrites (first :: rest ++ [entry]) = first ::
          (EntryLog.put ⟨firstWrites rest⟩ entry).1.entries.filter fun e => e.key != first.key := by
        rw [← ih]
        rfl
      rw [hcons]
      by_cases hold : EntryLog.Has ⟨rest⟩ entry.key
      · have hall : EntryLog.Has ⟨first :: rest⟩ entry.key := by
          obtain ⟨e, he, hk⟩ := hold
          exact ⟨e, List.mem_cons_of_mem _ he, hk⟩
        rw [EntryLog.put_of_has (has_firstWrites.mpr hold),
          EntryLog.put_of_has (has_firstWrites.mpr hall)]
        rfl
      · rw [EntryLog.put_of_not_has (mt has_firstWrites.mp hold), List.filter_append]
        by_cases hfirst : first.key = entry.key
        · have hall : EntryLog.Has ⟨first :: rest⟩ entry.key := ⟨first, by simp, hfirst⟩
          rw [EntryLog.put_of_has (has_firstWrites.mpr hall)]
          simp [firstWrites, hfirst]
        · have hnone : ¬EntryLog.Has ⟨first :: rest⟩ entry.key := by
            rintro ⟨e, he, hk⟩
            rcases List.mem_cons.mp he with rfl | he
            · exact hfirst hk
            · exact hold ⟨e, he, hk⟩
          rw [EntryLog.put_of_not_has (mt has_firstWrites.mp hnone)]
          simp [firstWrites, Ne.symm hfirst]

end

/-- Of entries with distinct keys at most one has a given key. -/
theorem find?_key_eq_some_iff {entries : List CacheEntry}
    (h : entries.Pairwise fun a b => a.key ≠ b.key) {key : String} {entry : CacheEntry} :
    (entries.find? fun e => e.key == key) = some entry ↔ entry ∈ entries ∧ entry.key = key := by
  constructor
  · intro hfind
    exact ⟨List.mem_of_find?_eq_some hfind, by simpa using List.find?_some hfind⟩
  · rintro ⟨hmem, rfl⟩
    induction entries with
    | nil => simp at hmem
    | cons first rest ih =>
        obtain ⟨hfirst, hrest⟩ := List.pairwise_cons.mp h
        rcases List.mem_cons.mp hmem with rfl | hmem
        · simp
        · rw [List.find?_cons_of_neg (by simpa using hfirst entry hmem)]
          exact ih hrest hmem

theorem find?_key_reverse {entries : List CacheEntry}
    (h : entries.Pairwise fun a b => a.key ≠ b.key) (key : String) :
    (entries.reverse.find? fun e => e.key == key) = entries.find? fun e => e.key == key := by
  have hreverse : entries.reverse.Pairwise fun a b => a.key ≠ b.key :=
    List.pairwise_reverse.mpr (h.imp Ne.symm)
  refine Option.ext fun entry => ?_
  rw [find?_key_eq_some_iff hreverse, find?_key_eq_some_iff h, List.mem_reverse]

namespace EntryTable

def Numbered (table : EntryTable) : Prop := table.rows.Pairwise fun a b => a.number ≠ b.number

section
variable {table : EntryTable}

theorem numbered_put (hv : table.Valid) (hn : table.Numbered) (entry : CacheEntry) :
    (table.put entry).1.Numbered := by
  unfold put
  split
  · exact hn
  · refine List.pairwise_cons.mpr ⟨fun row hr => ?_, hn⟩
    have hle := hv row hr
    exact Nat.ne_of_gt (Nat.lt_succ_of_le hle)

theorem Numbered.eq_of_number_eq (hn : table.Numbered) {a b : EntryRow} (ha : a ∈ table.rows)
    (hb : b ∈ table.rows) (h : a.number = b.number) : a = b :=
  List.Pairwise.forall_of_forall_of_flip (R := fun a b => a.number = b.number → a = b)
    (fun _ _ _ => rfl) (hn.imp fun hne heq => absurd heq hne)
    (hn.imp fun hne heq => absurd heq.symm hne) ha hb h

theorem select_eq_filter (hn : table.Numbered) (condition : EntryRow → Bool) :
    table.select condition = (table.select fun _ => true).filter condition := by
  have hsorted (condition : EntryRow → Bool) :
      (table.select condition).Pairwise fun a b => isNewer a b = true :=
    List.pairwise_mergeSort isNewer_trans isNewer_total _
  refine List.Perm.eq_of_pairwise ?_ (hsorted condition) ((hsorted _).filter condition) ?_
  · intro a b ha hb hab hba
    simp only [isNewer, decide_eq_true_eq] at hab hba
    exact hn.eq_of_number_eq (mem_select.mp ha).1 (mem_select.mp (List.mem_filter.mp hb).1).1
      (Nat.le_antisymm hba hab)
  · have hrows : (table.rows.filter fun _ => true) = table.rows :=
      List.filter_eq_self.mpr fun _ _ => rfl
    have hall : (table.select fun _ => true).Perm table.rows := by
      rw [select, hrows]
      exact List.mergeSort_perm _ _
    exact (List.mergeSort_perm _ _).trans (hall.filter condition).symm

theorem map_entry_select : (table.select fun _ => true).map EntryRow.entry =
    table.entries.reverse := by
  rw [entries, ← List.map_reverse, List.reverse_reverse]

theorem head?_select (hn : table.Numbered) (condition : EntryRow → Bool)
    (onEntry : CacheEntry → Bool) (h : ∀ row ∈ table.rows, condition row = onEntry row.entry) :
    (table.select condition).head?.map EntryRow.entry = table.entries.reverse.find? onEntry := by
  have hsame : (table.select fun _ => true).filter condition =
      (table.select fun _ => true).filter (onEntry ∘ EntryRow.entry) :=
    List.filter_congr fun row hr => h row (mem_select.mp hr).1
  rw [select_eq_filter hn, hsame, List.head?_filter, ← List.find?_map, map_entry_select]

theorem get?_eq (hn : table.Numbered) (hk : table.entries.Pairwise fun a b => a.key ≠ b.key)
    (key : String) : table.get? key = EntryLog.get? ⟨table.entries⟩ key := by
  have hnewest := head?_select hn (fun row => row.key == key) (fun e => e.key == key)
    fun _ _ => rfl
  rw [get?, hnewest, find?_key_reverse hk]
  rfl

end

end EntryTable

namespace Text

/-- A text that functions on texts see completely. -/
def NulFree (text : String) : Prop := ∀ c ∈ text.toList, c.toNat ≠ 0

instance (text : String) : Decidable (NulFree text) :=
  List.decidableBAll (fun c : Char => c.toNat ≠ 0) text.toList

theorem visible_of_nulFree {text : String} (h : NulFree text) :
    EntryTable.visible text = text.toList := by
  have hall : (text.toList ++ []).takeWhile (fun c => c.toNat != 0) =
      text.toList ++ [].takeWhile (fun c => c.toNat != 0) :=
    List.takeWhile_append_of_pos fun c hc => by simpa using h c hc
  rw [List.takeWhile_nil, List.append_nil] at hall
  exact hall

theorem textStart_eq_iff {key stem : String} (hkey : NulFree key) (hstem : NulFree stem) :
    (EntryTable.textStart key (EntryTable.textLength stem) == stem) =
      startsWith stem.toList key.toList := by
  rw [Bool.eq_iff_iff, beq_iff_eq, startsWith_iff, EntryTable.textStart, EntryTable.textLength,
    visible_of_nulFree hkey, visible_of_nulFree hstem, List.prefix_iff_eq_take, eq_comm,
    ← String.toList_inj, String.toList_ofList]

end Text

theorem EntryTable.newest?_eq {table : EntryTable} (hn : table.Numbered)
    (hkeys : ∀ entry ∈ table.entries, Text.NulFree entry.key) {stem : String}
    (hstem : Text.NulFree stem) : table.newest? stem = EntryLog.newest? ⟨table.entries⟩ stem := by
  refine head?_select hn _ _ fun row hr => ?_
  exact Text.textStart_eq_iff (hkeys row.entry (mem_entries.mpr ⟨row, hr, rfl⟩)) hstem

inductive StoreRequest where
  | put (entry : CacheEntry)
  | get (key : String)
  | newest (stem : String)
  | list

inductive StoreAnswer where
  | written (outcome : PutOutcome)
  | found (entry : Option CacheEntry)
  | listed (summaries : List CacheSummary)
deriving DecidableEq

namespace StoreRequest

def write? : StoreRequest → Option CacheEntry
  | put entry => some entry
  | _ => none

/-- The answer of a store that was asked for the given writes before. -/
def answer (writes : List CacheEntry) : StoreRequest → StoreAnswer
  | put entry =>
    .written (if writes.any fun e => e.key == entry.key then .alreadyExists else .stored)
  | get key => .found (writes.find? fun e => e.key == key)
  | newest stem => .found ((firstWrites writes).reverse.find? fun e =>
      decide (Utf8.encode stem <+: Utf8.encode e.key))
  | list => .listed ((firstWrites writes).reverse.map fun e =>
      ⟨e.key, UInt64.ofNat e.payload.length, e.createdAt⟩)

/-- No text of the request has a NUL character. -/
def NulFree : StoreRequest → Prop
  | put entry => Text.NulFree entry.key
  | get key => Text.NulFree key
  | newest stem => Text.NulFree stem
  | list => True

instance : DecidablePred NulFree
  | put entry => inferInstanceAs (Decidable (Text.NulFree entry.key))
  | get key => inferInstanceAs (Decidable (Text.NulFree key))
  | newest stem => inferInstanceAs (Decidable (Text.NulFree stem))
  | list => inferInstanceAs (Decidable True)

end StoreRequest

namespace CacheStore

def serve (store : CacheStore) : StoreRequest → Except StoreError (CacheStore × StoreAnswer)
  | .put entry => do
    let (store, outcome) ← store.put entry
    pure (store, .written outcome)
  | .get key => do pure (store, .found (← store.get key))
  | .newest stem => do pure (store, .found (← store.newest stem))
  | .list => pure (store, .listed store.list)

def answers (store : CacheStore) : List StoreRequest → Except StoreError (List StoreAnswer)
  | [] => pure []
  | request :: rest => do
    let (store, answer) ← store.serve request
    pure (answer :: (← store.answers rest))

/-- No two rows of the table, if the store is on one, have one number. -/
def Numbered (store : CacheStore) : Prop :=
  match store.contents with
  | .log _ => True
  | .table table => table.Numbered

structure Remembers (store : CacheStore) (writes : List CacheEntry) : Prop where
  valid : store.Valid
  numbered : store.Numbered
  working : store.failing = []
  entries_eq : store.entries = firstWrites writes
  nulFree : ∀ entry ∈ writes, Text.NulFree entry.key

theorem remembers_inMemory : inMemory.Remembers [] where
  valid := trivial
  numbered := trivial
  working := rfl
  entries_eq := rfl
  nulFree := by simp

theorem remembers_onTable_empty : (onTable .empty).Remembers [] where
  valid := EntryTable.valid_empty
  numbered := List.Pairwise.nil
  working := rfl
  entries_eq := by
    show EntryTable.empty.entries = []
    rw [EntryTable.entries, EntryTable.select, EntryTable.empty, List.filter_nil,
      List.mergeSort_nil, List.reverse_nil, List.map_nil]
  nulFree := by simp

theorem Numbered.put {store next : CacheStore} (hv : store.Valid) (hn : store.Numbered)
    {entry : CacheEntry} {outcome : PutOutcome} (hput : store.put entry = .ok (next, outcome)) :
    next.Numbered := by
  obtain ⟨contents, failing⟩ := store
  simp only [CacheStore.put, perform] at hput
  split at hput
  · simp at hput
  · cases contents with
    | log log =>
        obtain ⟨rfl, -⟩ := Prod.mk.inj (Except.ok.inj hput)
        trivial
    | table table =>
        obtain ⟨rfl, -⟩ := Prod.mk.inj (Except.ok.inj hput)
        exact EntryTable.numbered_put hv hn entry

section
variable {store : CacheStore} {writes : List CacheEntry}

theorem Remembers.put (h : store.Remembers writes) {entry : CacheEntry}
    (hentry : Text.NulFree entry.key) :
    ∃ next, store.serve (.put entry) = .ok (next, (StoreRequest.put entry).answer writes) ∧
      next.Remembers (writes ++ [entry]) := by
  obtain ⟨next, hput, hlog, hvalid, hworking⟩ := put_eq h.valid h.working entry
  have hentries : store.log = ⟨firstWrites writes⟩ := congrArg EntryLog.mk h.entries_eq
  refine ⟨next, ?_, hvalid, h.numbered.put h.valid hput, hworking, ?_, ?_⟩
  · have houtcome : (store.log.put entry).2 =
        if writes.any fun e => e.key == entry.key then .alreadyExists else .stored := by
      by_cases hold : EntryLog.Has ⟨writes⟩ entry.key
      · rw [if_pos (EntryLog.any_key_iff.mpr hold), hentries,
          EntryLog.put_of_has (has_firstWrites.mpr hold)]
      · rw [if_neg (mt EntryLog.any_key_iff.mp hold), hentries,
          EntryLog.put_of_not_has (mt has_firstWrites.mp hold)]
    rw [serve, hput, houtcome]
    rfl
  · have hnext : next.entries = (store.log.put entry).1.entries := congrArg EntryLog.entries hlog
    rw [hnext, hentries, firstWrites_concat]
  · intro e he
    rcases List.mem_append.mp he with he | he
    · exact h.nulFree e he
    · obtain rfl := List.mem_singleton.mp he
      exact hentry

theorem Remembers.get (h : store.Remembers writes) (key : String) :
    store.get key = .ok (writes.find? fun e => e.key == key) := by
  refine (perform_of_working h.working _ _).trans (congrArg Except.ok ?_)
  have hentries := h.entries_eq
  have hnumbered := h.numbered
  unfold entries at hentries
  unfold Numbered at hnumbered
  cases hc : store.contents with
  | log log =>
      rw [hc] at hentries
      simp only at hentries ⊢
      rw [EntryLog.get?, hentries, find?_firstWrites]
  | table table =>
      rw [hc] at hentries hnumbered
      simp only at hentries hnumbered ⊢
      rw [EntryTable.get?_eq hnumbered (hentries ▸ keys_distinct_firstWrites writes), hentries,
        EntryLog.get?, find?_firstWrites]

theorem Remembers.newest (h : store.Remembers writes) {stem : String}
    (hstem : Text.NulFree stem) :
    store.newest stem = .ok ((firstWrites writes).reverse.find? fun e =>
      decide (Utf8.encode stem <+: Utf8.encode e.key)) := by
  refine (perform_of_working h.working _ _).trans (congrArg Except.ok ?_)
  have hentries := h.entries_eq
  have hnumbered := h.numbered
  have hbytes : (fun e : CacheEntry => e.keyStartsWith stem) =
      fun e => decide (Utf8.encode stem <+: Utf8.encode e.key) := by
    funext e
    rw [Bool.eq_iff_iff, decide_eq_true_iff, Utf8.encode_prefix_iff]
    exact Text.startsWith_iff
  rw [← hbytes]
  unfold entries at hentries
  unfold Numbered at hnumbered
  cases hc : store.contents with
  | log log =>
      rw [hc] at hentries
      simp only at hentries ⊢
      rw [EntryLog.newest?, hentries]
  | table table =>
      rw [hc] at hentries hnumbered
      simp only at hentries hnumbered ⊢
      have hkeys : ∀ entry ∈ table.entries, Text.NulFree entry.key := by
        intro entry he
        rw [hentries] at he
        exact h.nulFree entry (mem_of_mem_firstWrites he)
      rw [EntryTable.newest?_eq hnumbered hkeys hstem, hentries, EntryLog.newest?]

theorem Remembers.list (h : store.Remembers writes) :
    store.list = (firstWrites writes).reverse.map CacheEntry.summary := by
  have hentries := h.entries_eq
  unfold entries at hentries
  unfold CacheStore.list
  cases hc : store.contents with
  | log log =>
      rw [hc] at hentries
      simp only at hentries ⊢
      rw [EntryLog.list, hentries]
  | table table =>
      rw [hc] at hentries
      simp only at hentries ⊢
      rw [← hentries, ← EntryTable.map_entry_select, List.map_map]
      rfl

theorem Remembers.serve (h : store.Remembers writes) {request : StoreRequest}
    (hrequest : request.NulFree) :
    ∃ next, store.serve request = .ok (next, request.answer writes) ∧
      next.Remembers (writes ++ request.write?.toList) := by
  cases request with
  | put entry => exact h.put hrequest
  | get key =>
      refine ⟨store, ?_, by simpa [StoreRequest.write?] using h⟩
      rw [CacheStore.serve, h.get]
      rfl
  | newest stem =>
      refine ⟨store, ?_, by simpa [StoreRequest.write?] using h⟩
      rw [CacheStore.serve, h.newest hrequest]
      rfl
  | list =>
      refine ⟨store, ?_, by simpa [StoreRequest.write?] using h⟩
      rw [CacheStore.serve, h.list]
      rfl

theorem Remembers.answers {requests : List StoreRequest} (h : store.Remembers writes)
    (hrequests : ∀ request ∈ requests, request.NulFree) :
    store.answers requests = .ok (requests.mapIdx fun i request =>
      request.answer (writes ++ (requests.take i).filterMap StoreRequest.write?)) := by
  induction requests generalizing store writes with
  | nil => rfl
  | cons request rest ih =>
      obtain ⟨next, hserve, hnext⟩ := h.serve (hrequests request List.mem_cons_self)
      have hrest := ih hnext fun r hr => hrequests r (List.mem_cons_of_mem _ hr)
      have hbefore (i : Nat) : writes ++ ((request :: rest).take (i + 1)).filterMap
          StoreRequest.write? = writes ++ request.write?.toList ++
            (rest.take i).filterMap StoreRequest.write? := by
        rw [List.take_succ_cons, List.append_assoc]
        cases hw : request.write? <;> simp [hw]
      rw [CacheStore.answers, hserve, List.mapIdx_cons]
      simp only [hbefore, List.take_zero, List.filterMap_nil, List.append_nil]
      simp only [bind, Except.bind, hrest, pure, Except.pure]

end

/-- A store in memory and one on a new table give the same answers to requests: each is answered
from what was to be written before it. -/
theorem answers_eq {requests : List StoreRequest}
    (hrequests : ∀ request ∈ requests, request.NulFree) :
    inMemory.answers requests = .ok (requests.mapIdx fun i request =>
        request.answer ((requests.take i).filterMap StoreRequest.write?)) ∧
      (onTable .empty).answers requests = .ok (requests.mapIdx fun i request =>
        request.answer ((requests.take i).filterMap StoreRequest.write?)) :=
  ⟨remembers_inMemory.answers hrequests, remembers_onTable_empty.answers hrequests⟩

/-- Two writes of one key, one of another, and look-ups by stems of several lengths. -/
def mixedRequests : List StoreRequest :=
  [.put ⟨"ö-1", [1], .epoch⟩, .put ⟨"ö-1", [2, 2], .epoch⟩, .put ⟨"o-1", [3, 3], .epoch⟩,
    .get "ö-1", .newest "ö", .newest "", .newest "ö-1-", .list]

theorem answers_eq_mixed :
    inMemory.answers mixedRequests = (onTable .empty).answers mixedRequests ∧
      inMemory.answers mixedRequests = .ok
        [.written .stored, .written .alreadyExists, .written .stored,
          .found (some ⟨"ö-1", [1], .epoch⟩), .found (some ⟨"ö-1", [1], .epoch⟩),
          .found (some ⟨"o-1", [3, 3], .epoch⟩), .found none,
          .listed [⟨"o-1", 2, .epoch⟩, ⟨"ö-1", 1, .epoch⟩]] := by
  obtain ⟨hlog, htable⟩ := @answers_eq mixedRequests (by decide +kernel)
  refine ⟨hlog.trans htable.symm, hlog.trans (congrArg Except.ok ?_)⟩
  decide +kernel

end CacheStore

end BuildMatrix
