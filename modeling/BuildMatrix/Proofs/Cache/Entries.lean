import BuildMatrix.Cache.Store

/-!
# The entries of a store

A store that is in order is seen as the log of its entries, whether it keeps a log or a table: an
exact look-up finds an entry if the log has one of the key, and a write is a write to the log. What
several writes of one key leave is decided by the first of them.
-/

namespace BuildMatrix

namespace EntryLog

def Has (log : EntryLog) (key : String) : Prop := ∃ entry ∈ log.entries, entry.key = key

def putAll (log : EntryLog) (entries : List CacheEntry) : EntryLog :=
  entries.foldl (fun log entry => (log.put entry).1) log

section
variable {log : EntryLog} {entry : CacheEntry} {key : String}

theorem any_key_iff : (log.entries.any fun e => e.key == key) = true ↔ log.Has key := by
  simp [Has]

theorem put_of_has (h : log.Has entry.key) : log.put entry = (log, .alreadyExists) := by
  simp [put, any_key_iff.mpr h]

theorem put_of_not_has (h : ¬log.Has entry.key) :
    log.put entry = (⟨log.entries ++ [entry]⟩, .stored) := by
  have hn : ¬(log.entries.any fun e => e.key == entry.key) = true := fun hk =>
    h (any_key_iff.mp hk)
  simp [put, hn]

theorem put_stored_iff : (log.put entry).2 = .stored ↔ ¬log.Has entry.key := by
  by_cases h : log.Has entry.key
  · simp [put_of_has h, h]
  · simp [put_of_not_has h, h]

theorem has_put (h : log.Has key) : (log.put entry).1.Has key := by
  by_cases hk : log.Has entry.key
  · rwa [put_of_has hk]
  · obtain ⟨e, he, hek⟩ := h
    rw [put_of_not_has hk]
    exact ⟨e, List.mem_append_left _ he, hek⟩

theorem has_put_self : (log.put entry).1.Has entry.key := by
  by_cases hk : log.Has entry.key
  · rwa [put_of_has hk]
  · rw [put_of_not_has hk]
    exact ⟨entry, by simp, rfl⟩

theorem putAll_concat (entries : List CacheEntry) :
    log.putAll (entries ++ [entry]) = ((log.putAll entries).put entry).1 := by
  simp [putAll]

end

section
variable {log : EntryLog} {key : String} {entries : List CacheEntry}

theorem putAll_of_has (hk : log.Has key) (h : ∀ entry ∈ entries, entry.key = key) :
    log.putAll entries = log := by
  induction entries with
  | nil => rfl
  | cons entry rest ih =>
      have he : entry.key = key := h entry (by simp)
      have hput : (log.put entry).1 = log := by rw [put_of_has (he ▸ hk)]
      simp only [putAll, List.foldl_cons, hput]
      exact ih fun e hm => h e (by simp [hm])

theorem putAll_of_not_has (hk : ¬log.Has key) (h : ∀ entry ∈ entries, entry.key = key) :
    log.putAll entries = ⟨log.entries ++ entries.head?.toList⟩ := by
  cases entries with
  | nil => simp [putAll]
  | cons entry rest =>
      have he : entry.key = key := h entry (by simp)
      have hput : (log.put entry).1 = ⟨log.entries ++ [entry]⟩ := by
        rw [put_of_not_has (he ▸ hk)]
      have hnow : (⟨log.entries ++ [entry]⟩ : EntryLog).Has key := ⟨entry, by simp, he⟩
      have hrest := putAll_of_has hnow fun e hm => h e (List.mem_cons_of_mem _ hm)
      simp only [putAll, List.foldl_cons, hput, List.head?_cons, Option.toList_some]
      exact hrest

end

end EntryLog

namespace EntryTable

def Valid (table : EntryTable) : Prop := ∀ row ∈ table.rows, row.number ≤ table.lastNumber

/-- The entries in the order in which their rows were numbered. -/
def entries (table : EntryTable) : List CacheEntry :=
  (table.select fun _ => true).reverse.map EntryRow.entry

theorem isNewer_trans (a b c : EntryRow) (hab : isNewer a b) (hbc : isNewer b c) :
    isNewer a c := by
  simp only [isNewer, decide_eq_true_eq] at hab hbc ⊢
  omega

theorem isNewer_total (a b : EntryRow) : isNewer a b || isNewer b a := by
  simp only [isNewer, Bool.or_eq_true, decide_eq_true_eq]
  omega

theorem mem_select {table : EntryTable} {condition : EntryRow → Bool} {row : EntryRow} :
    row ∈ table.select condition ↔ row ∈ table.rows ∧ condition row := by
  simp [select, List.mem_mergeSort]

theorem mem_entries {table : EntryTable} {entry : CacheEntry} :
    entry ∈ table.entries ↔ ∃ row ∈ table.rows, row.entry = entry := by
  simp [entries, mem_select]

theorem valid_empty : empty.Valid := by simp [Valid, empty]

theorem has_iff {table : EntryTable} {key : String} :
    EntryLog.Has ⟨table.entries⟩ key ↔ ∃ row ∈ table.rows, row.key = key := by
  constructor
  · rintro ⟨entry, he, rfl⟩
    obtain ⟨row, hr, rfl⟩ := mem_entries.mp he
    exact ⟨row, hr, rfl⟩
  · rintro ⟨row, hr, rfl⟩
    exact ⟨row.entry, mem_entries.mpr ⟨row, hr, rfl⟩, rfl⟩

theorem get?_isSome_iff {table : EntryTable} {key : String} :
    (table.get? key).isSome ↔ EntryLog.Has ⟨table.entries⟩ key := by
  rw [has_iff, get?, Option.isSome_map]
  cases hs : table.select fun row => row.key == key with
  | nil =>
      simp only [List.head?_nil, Option.isSome_none, Bool.false_eq_true, false_iff]
      rintro ⟨row, hr, hk⟩
      have hm : row ∈ table.select fun row => row.key == key :=
        mem_select.mpr ⟨hr, by simpa using hk⟩
      simp [hs] at hm
  | cons row rest =>
      have hm : row ∈ table.select fun row => row.key == key := by simp [hs]
      obtain ⟨hr, hk⟩ := mem_select.mp hm
      simp only [List.head?_cons, Option.isSome_some, true_iff]
      exact ⟨row, hr, by simpa using hk⟩

/-- A row with a number that no other row reaches stands last. -/
theorem entries_cons {table : EntryTable} {row : EntryRow}
    (h : ∀ r ∈ table.rows, r.number ≤ row.number) (lastNumber : Nat) :
    entries ⟨row :: table.rows, lastNumber⟩ = table.entries ++ [row.entry] := by
  obtain ⟨before, after, hcons, hrest, hbefore⟩ :=
    List.mergeSort_cons isNewer_trans isNewer_total row table.rows
  have hnone : before = [] := by
    refine List.eq_nil_iff_forall_not_mem.mpr fun r hr => ?_
    have hmem : r ∈ table.rows.mergeSort isNewer := by simp [hrest, hr]
    have hle := h r (List.mem_mergeSort.mp hmem)
    simpa [isNewer, hle] using hbefore r hr
  subst hnone
  have hall : ∀ rows : List EntryRow, rows.filter (fun _ => true) = rows := fun rows =>
    List.filter_eq_self.mpr (by simp)
  simp only [entries, select, hall]
  rw [hcons, hrest]
  simp

/-- A write to a table is a write to the log of its entries. -/
theorem put_entries {table : EntryTable} (hv : table.Valid) (entry : CacheEntry) :
    (table.put entry).1.entries = (EntryLog.put ⟨table.entries⟩ entry).1.entries ∧
      (table.put entry).2 = (EntryLog.put ⟨table.entries⟩ entry).2 := by
  by_cases hk : EntryLog.Has ⟨table.entries⟩ entry.key
  · have hany : (table.rows.any fun row => row.key == entry.key) = true := by
      simpa using has_iff.mp hk
    simp [EntryLog.put_of_has hk, put, hany]
  · have hany : ¬(table.rows.any fun row => row.key == entry.key) = true := by
      intro hany
      exact hk (has_iff.mpr (by simpa using hany))
    rw [EntryLog.put_of_not_has hk]
    simp only [put, hany, Bool.false_eq_true, if_false]
    exact ⟨entries_cons (fun r hr => Nat.le_trans (hv r hr) (Nat.le_succ _)) _, trivial⟩

theorem valid_put {table : EntryTable} (hv : table.Valid) (entry : CacheEntry) :
    (table.put entry).1.Valid := by
  unfold put
  split
  · exact hv
  · intro row hr
    rcases List.mem_cons.mp hr with rfl | hr
    · exact Nat.le_refl _
    · exact Nat.le_trans (hv row hr) (Nat.le_succ _)

end EntryTable

namespace CacheStore

/-- The entries in the order in which they were written. -/
def entries (store : CacheStore) : List CacheEntry :=
  match store.contents with
  | .log log => log.entries
  | .table table => table.entries

/-- The entries as a log. -/
def log (store : CacheStore) : EntryLog := ⟨store.entries⟩

def Valid (store : CacheStore) : Prop :=
  match store.contents with
  | .log _ => True
  | .table table => table.Valid

theorem valid_inMemory : inMemory.Valid := trivial

section
variable {store : CacheStore}

theorem perform_of_working (hw : store.failing = []) {α : Type} (method : StoreMethod)
    (result : α) : store.perform method result = .ok result := by
  simp [perform, hw]

/-- A look-up in a store that is in order finds an entry if there is one of the key. -/
theorem get_isSome_iff (hw : store.failing = []) (key : String) :
    ∃ found, store.get key = .ok found ∧ (found.isSome ↔ store.log.Has key) := by
  refine ⟨_, perform_of_working hw _ _, ?_⟩
  unfold log entries
  cases store.contents with
  | log log => simp [EntryLog.get?, EntryLog.Has]
  | table table => exact EntryTable.get?_isSome_iff

/-- A write to a store that is in order is a write to the log of its entries. -/
theorem put_eq (hv : store.Valid) (hw : store.failing = []) (entry : CacheEntry) :
    ∃ next : CacheStore, store.put entry = .ok (next, (store.log.put entry).2) ∧
      next.log = (store.log.put entry).1 ∧ next.Valid ∧ next.failing = [] := by
  obtain ⟨contents, failing⟩ := store
  simp only at hw
  subst hw
  cases contents with
  | log log => exact ⟨_, perform_of_working rfl _ _, rfl, trivial, rfl⟩
  | table table =>
      obtain ⟨hentries, houtcome⟩ := EntryTable.put_entries hv entry
      refine ⟨⟨.table (table.put entry).1, []⟩, ?_, congrArg EntryLog.mk hentries,
        EntryTable.valid_put hv entry, rfl⟩
      have hlog : (log ⟨.table table, []⟩).put entry = EntryLog.put ⟨table.entries⟩ entry := rfl
      rw [hlog, ← houtcome]
      exact perform_of_working rfl _ _

end

end CacheStore

end BuildMatrix
