import BuildMatrix.Cache.Resolution
import BuildMatrix.Proofs.Cache.Requests

/-!
# What a cache is resolved to

Any of the look-ups by which a cache is resolved may fail. An entry of the exact key goes before all
others, then a start of keys before the later ones, and under one start the entry that was written
last. A look-up that fails is passed over, and nothing else depends on it.
-/

namespace BuildMatrix

namespace Text

/-- A table sees no more of a text than its front, so a start of keys is found by a table exactly if
it is seen completely. -/
theorem textStart_beq_iff {key stem : String} :
    (EntryTable.textStart key (EntryTable.textLength stem) == stem) = true ↔
      NulFree stem ∧ stem.toList <+: key.toList := by
  have hvisible : EntryTable.visible key <+: key.toList := List.takeWhile_prefix _
  rw [beq_iff_eq, ← String.toList_inj, EntryTable.textStart, String.toList_ofList]
  constructor
  · intro h
    have hfront : stem.toList <+: EntryTable.visible key := h ▸ List.take_prefix _ _
    refine ⟨fun c hc => ?_, hfront.trans hvisible⟩
    have hall := List.all_eq_true.mp List.all_takeWhile c (hfront.subset hc)
    simpa using hall
  · intro h
    obtain ⟨hstem, rest, hrest⟩ := h
    have hkey : EntryTable.visible key =
        stem.toList ++ rest.takeWhile fun c => c.toNat != 0 := by
      rw [EntryTable.visible, ← hrest]
      exact List.takeWhile_append_of_pos fun c hc => by simpa using hstem c hc
    rw [EntryTable.textLength, visible_of_nulFree hstem, hkey, List.take_left]

end Text

def Lookup.orFails (fails : Bool) (method : StoreMethod) (lookup : Lookup) : Lookup :=
  if fails then .error ⟨method⟩ else lookup

/-- What is found first in a list of answers is found at a place before which nothing is found. -/
theorem findSome?_mapIdx_eq_some_iff {α β γ : Type} {answer : Nat → α → β} {found? : β → Option γ}
    {l : List α} {c : γ} :
    (l.mapIdx answer).findSome? found? = some c ↔
      ∃ n a, l[n]? = some a ∧ found? (answer n a) = some c ∧
        ∀ m < n, ∀ b, l[m]? = some b → found? (answer m b) = none := by
  induction l generalizing answer with
  | nil => simp
  | cons a l ih =>
    rw [List.mapIdx_cons, List.findSome?_cons]
    cases hfirst : found? (answer 0 a) with
    | some d =>
      constructor
      · intro h
        exact ⟨0, a, rfl, hfirst.trans h, fun m hm => absurd hm (Nat.not_lt_zero m)⟩
      · intro h
        obtain ⟨n, b, hb, hc, hbefore⟩ := h
        cases n with
        | zero =>
          obtain rfl : a = b := Option.some.inj hb
          exact hfirst.symm.trans hc
        | succ n =>
          rw [hbefore 0 (Nat.succ_pos n) a rfl] at hfirst
          cases hfirst
    | none =>
      simp only
      rw [ih]
      constructor
      · intro h
        obtain ⟨n, b, hb, hc, hbefore⟩ := h
        refine ⟨n + 1, b, hb, hc, fun m hm => ?_⟩
        cases m with
        | zero =>
          intro b' hb'
          obtain rfl : a = b' := Option.some.inj hb'
          exact hfirst
        | succ m => exact hbefore m (Nat.lt_of_succ_lt_succ hm)
      · intro h
        obtain ⟨n, b, hb, hc, hbefore⟩ := h
        cases n with
        | zero =>
          obtain rfl : a = b := Option.some.inj hb
          rw [hfirst] at hc
          cases hc
        | succ n => exact ⟨n, b, hb, hc, fun m hm => hbefore (m + 1) (Nat.succ_lt_succ hm)⟩

theorem findSome?_mapIdx_eq_none_iff {α β γ : Type} {answer : Nat → α → β} {found? : β → Option γ}
    {l : List α} :
    (l.mapIdx answer).findSome? found? = none ↔
      ∀ n a, l[n]? = some a → found? (answer n a) = none := by
  rw [List.findSome?_eq_none_iff]
  constructor
  · intro h n a ha
    apply h
    rw [List.mem_mapIdx]
    obtain ⟨hlt, rfl⟩ := List.getElem?_eq_some_iff.mp ha
    exact ⟨n, hlt, rfl⟩
  · intro h b hb
    obtain ⟨n, hlt, rfl⟩ := List.mem_mapIdx.mp hb
    exact h n _ (List.getElem?_eq_getElem hlt)

theorem EntryLog.distinct_put {log : EntryLog}
    (h : log.entries.Pairwise fun a b => a.key ≠ b.key) (entry : CacheEntry) :
    (log.put entry).1.entries.Pairwise fun a b => a.key ≠ b.key := by
  by_cases hk : log.Has entry.key
  · rw [put_of_has hk]
    exact h
  · rw [put_of_not_has hk]
    apply List.pairwise_append.mpr
    refine ⟨h, List.pairwise_singleton _ _, fun e he other hother => ?_⟩
    rw [List.mem_singleton.mp hother]
    exact fun hkey => hk ⟨e, he, hkey⟩

namespace CacheStore

/-- A store in which every key was written once. -/
structure WellFormed (store : CacheStore) : Prop where
  valid : store.Valid
  numbered : store.Numbered
  distinct : store.entries.Pairwise fun a b => a.key ≠ b.key

/-- An entry is found by a start of its key. A table takes a start to be over at its first NUL
character, and then finds nothing by it. -/
def Matches (store : CacheStore) (stem : String) (entry : CacheEntry) : Prop :=
  (store.table?.isSome → Text.NulFree stem) ∧ stem.toList <+: entry.key.toList

def IsNewest (store : CacheStore) (stem : String) (entry : CacheEntry) : Prop :=
  store.Matches stem entry ∧ ∃ older newer, store.entries = older ++ entry :: newer ∧
    ∀ e ∈ newer, ¬store.Matches stem e

def Answers (store : CacheStore) (method : StoreMethod) (fails : Bool) : Prop :=
  fails = false ∧ method ∉ store.failing

/-- What is found for a key and the starts of others if some calls of the store fail: the call 0 is
that for the exact key, the call `n + 1` that for the start at the place `n`. -/
def resolveDespite (store : CacheStore) (fails : Nat → Bool) (key : CacheKey)
    (stems : List String) : Resolution :=
  .ofLookups (Lookup.orFails (fails 0) .get (store.get key.render))
    (stems.mapIdx fun n stem => Lookup.orFails (fails (n + 1)) .newest (store.newest stem))

/-- The exact key is not found, or not looked up. -/
def Lacks (store : CacheStore) (fails : Nat → Bool) (key : CacheKey) : Prop :=
  store.Answers .get (fails 0) → ∀ entry ∈ store.entries, entry.key ≠ key.render

/-- Nothing is found by the start at a place, or it is not looked up. -/
def Passes (store : CacheStore) (fails : Nat → Bool) (stems : List String) (n : Nat) : Prop :=
  ∀ stem, stems[n]? = some stem → store.Answers .newest (fails (n + 1)) →
    ∀ entry ∈ store.entries, ¬store.Matches stem entry

/-- What is to be found for a key and the starts of others if some calls of the store fail. -/
inductive Prefers (store : CacheStore) (fails : Nat → Bool) (key : CacheKey)
    (stems : List String) : Resolution → Prop
  | hit (entry : CacheEntry) : store.Answers .get (fails 0) → entry ∈ store.entries →
      entry.key = key.render → Prefers store fails key stems ⟨.hit, entry.payload⟩
  | partialHit (n : Nat) (stem : String) (entry : CacheEntry) : store.Lacks fails key →
      (∀ m < n, store.Passes fails stems m) → stems[n]? = some stem →
      store.Answers .newest (fails (n + 1)) → store.IsNewest stem entry →
      Prefers store fails key stems ⟨.partialHit entry.key, entry.payload⟩
  | miss : store.Lacks fails key → (∀ n, store.Passes fails stems n) →
      Prefers store fails key stems ⟨.miss, []⟩

section
variable {store : CacheStore}

theorem wellFormed_inMemory : inMemory.WellFormed := ⟨trivial, trivial, List.Pairwise.nil⟩

theorem wellFormed_onTable_empty : (onTable .empty).WellFormed where
  valid := EntryTable.valid_empty
  numbered := remembers_onTable_empty.numbered
  distinct := by
    rw [remembers_onTable_empty.entries_eq]
    exact List.Pairwise.nil

theorem WellFormed.put (h : store.WellFormed) {entry : CacheEntry} {next : CacheStore}
    {outcome : PutOutcome} (hput : store.put entry = .ok (next, outcome)) : next.WellFormed := by
  have hnumbered := Numbered.put h.valid h.numbered hput
  obtain ⟨contents, failing⟩ := store
  simp only [CacheStore.put, perform] at hput
  split at hput
  · cases hput
  · cases contents with
    | log log =>
      obtain ⟨rfl, -⟩ := Prod.mk.inj (Except.ok.inj hput)
      exact ⟨trivial, trivial, EntryLog.distinct_put h.distinct entry⟩
    | table table =>
      obtain ⟨rfl, -⟩ := Prod.mk.inj (Except.ok.inj hput)
      refine ⟨EntryTable.valid_put h.valid entry, hnumbered, ?_⟩
      show (table.put entry).1.entries.Pairwise _
      rw [(EntryTable.put_entries h.valid entry).1]
      exact EntryLog.distinct_put h.distinct entry

theorem get_eq (h : store.WellFormed) (key : String) :
    store.get key = store.perform .get (store.entries.find? fun e => e.key == key) := by
  have hnumbered := h.numbered
  have hdistinct := h.distinct
  unfold get
  congr 1
  unfold entries at hdistinct ⊢
  unfold Numbered at hnumbered
  cases hc : store.contents with
  | log log => rfl
  | table table =>
    rw [hc] at hnumbered hdistinct
    exact EntryTable.get?_eq hnumbered hdistinct key

theorem newest_eq (h : store.WellFormed) (stem : String) :
    ∃ matching : CacheEntry → Bool, (∀ e, matching e = true ↔ store.Matches stem e) ∧
      store.newest stem = store.perform .newest (store.entries.reverse.find? matching) := by
  have hnumbered := h.numbered
  unfold newest Matches table? entries
  unfold Numbered at hnumbered
  cases hc : store.contents with
  | log log =>
    refine ⟨fun e => e.keyStartsWith stem, fun e => ?_, rfl⟩
    unfold CacheEntry.keyStartsWith
    rw [Text.startsWith_iff]
    simp
  | table table =>
    rw [hc] at hnumbered
    refine ⟨fun e => EntryTable.textStart e.key (EntryTable.textLength stem) == stem,
      fun e => ?_, ?_⟩
    · rw [Text.textStart_beq_iff]
      simp
    · congr 1
      exact EntryTable.head?_select hnumbered _ _ fun row _ => rfl

theorem found?_perform {fails : Bool} {method : StoreMethod} {answer : Option CacheEntry} :
    (Lookup.orFails fails method (store.perform method answer)).found? =
      if fails = false ∧ method ∉ store.failing then answer else none := by
  cases fails with
  | true => simp [Lookup.orFails, Lookup.found?]
  | false =>
    by_cases hm : method ∈ store.failing
    · simp [Lookup.orFails, perform, hm, Lookup.found?]
    · simp [Lookup.orFails, perform, hm, Lookup.found?]

theorem found?_get (h : store.WellFormed) {fails : Bool} {key : String} {entry : CacheEntry} :
    (Lookup.orFails fails .get (store.get key)).found? = some entry ↔
      store.Answers .get fails ∧ entry ∈ store.entries ∧ entry.key = key := by
  rw [get_eq h, found?_perform, Option.ite_none_right_eq_some,
    find?_key_eq_some_iff h.distinct]
  exact Iff.rfl

theorem found?_get_eq_none (h : store.WellFormed) {fails : Nat → Bool} {key : CacheKey} :
    (Lookup.orFails (fails 0) .get (store.get key.render)).found? = none ↔
      store.Lacks fails key := by
  rw [Option.eq_none_iff_forall_ne_some]
  simp only [ne_eq, found?_get h]
  constructor
  · intro hnone ha entry he hkey
    exact hnone entry ⟨ha, he, hkey⟩
  · intro hlacks entry hfound
    exact hlacks hfound.1 entry hfound.2.1 hfound.2.2

theorem found?_newest (h : store.WellFormed) {fails : Bool} {stem : String} {entry : CacheEntry} :
    (Lookup.orFails fails .newest (store.newest stem)).found? = some entry ↔
      store.Answers .newest fails ∧ store.IsNewest stem entry := by
  obtain ⟨matching, hmatching, hnewest⟩ := newest_eq h stem
  rw [hnewest, found?_perform, Option.ite_none_right_eq_some, List.find?_eq_some_iff_append]
  refine and_congr Iff.rfl (and_congr (hmatching entry) ?_)
  constructor
  · intro h
    obtain ⟨newer, older, hsplit, hnewer⟩ := h
    refine ⟨older.reverse, newer.reverse, ?_, fun e he => ?_⟩
    · rw [← List.reverse_reverse store.entries, hsplit]
      simp
    · have hnot := hnewer e (List.mem_reverse.mp he)
      exact fun hm => by simp [(hmatching e).mpr hm] at hnot
  · intro h
    obtain ⟨older, newer, hsplit, hnewer⟩ := h
    refine ⟨newer.reverse, older.reverse, by simp [hsplit], fun e he => ?_⟩
    have hnot := mt (hmatching e).mp (hnewer e (List.mem_reverse.mp he))
    simpa using hnot

theorem found?_newest_eq_none (h : store.WellFormed) {fails : Bool} {stem : String} :
    (Lookup.orFails fails .newest (store.newest stem)).found? = none ↔
      (store.Answers .newest fails → ∀ entry ∈ store.entries, ¬store.Matches stem entry) := by
  obtain ⟨matching, hmatching, hnewest⟩ := newest_eq h stem
  have hnone : store.entries.reverse.find? matching = none ↔
      ∀ entry ∈ store.entries, ¬store.Matches stem entry := by
    simp only [List.find?_eq_none, List.mem_reverse, hmatching]
  rw [hnewest, found?_perform, ← hnone]
  exact ite_eq_right_iff

theorem prefers_resolveDespite (h : store.WellFormed) (fails : Nat → Bool) (key : CacheKey)
    (stems : List String) :
    store.Prefers fails key stems (store.resolveDespite fails key stems) := by
  unfold resolveDespite Resolution.ofLookups
  cases hexact : (Lookup.orFails (fails 0) .get (store.get key.render)).found? with
  | some entry =>
    obtain ⟨hanswers, hmem, hkey⟩ := (found?_get h).mp hexact
    exact .hit entry hanswers hmem hkey
  | none =>
    have hlacks : store.Lacks fails key := (found?_get_eq_none h).mp hexact
    simp only
    generalize hothers : List.findSome? Lookup.found? _ = others
    cases others with
    | some entry =>
      obtain ⟨n, stem, hstem, hfound, hbefore⟩ := findSome?_mapIdx_eq_some_iff.mp hothers
      obtain ⟨hanswers, hnewest⟩ := (found?_newest h).mp hfound
      refine .partialHit n stem entry hlacks (fun m hm earlier hearlier => ?_) hstem hanswers
        hnewest
      exact (found?_newest_eq_none h).mp (hbefore m hm earlier hearlier)
    | none =>
      refine .miss hlacks fun n stem hstem => ?_
      exact (found?_newest_eq_none h).mp (findSome?_mapIdx_eq_none_iff.mp hothers n stem hstem)

/-- What is found is what is to be found, and there is nothing else to be found. -/
theorem resolveDespite_eq_iff (h : store.WellFormed) (fails : Nat → Bool) (key : CacheKey)
    (stems : List String) (resolution : Resolution) :
    store.resolveDespite fails key stems = resolution ↔
      store.Prefers fails key stems resolution := by
  constructor
  · intro he
    exact he ▸ prefers_resolveDespite h fails key stems
  · intro hprefers
    unfold resolveDespite Resolution.ofLookups
    cases hprefers with
    | hit entry hanswers hmem hkey =>
      rw [(found?_get h).mpr ⟨hanswers, hmem, hkey⟩]
    | partialHit n stem entry hlacks hpasses hstem hanswers hnewest =>
      rw [(found?_get_eq_none h).mpr hlacks]
      simp only
      rw [findSome?_mapIdx_eq_some_iff.mpr ⟨n, stem, hstem,
        (found?_newest h).mpr ⟨hanswers, hnewest⟩, fun m hm earlier hearlier =>
          (found?_newest_eq_none h).mpr (hpasses m hm earlier hearlier)⟩]
    | miss hlacks hpasses =>
      rw [(found?_get_eq_none h).mpr hlacks]
      simp only
      rw [findSome?_mapIdx_eq_none_iff.mpr fun n stem hstem =>
        (found?_newest_eq_none h).mpr (hpasses n stem hstem)]
      rfl

/-- With one start of keys, what is found by it is the last written of the entries that have it. -/
theorem resolveDespite_singleton_eq_partialHit_iff (h : store.WellFormed) (fails : Nat → Bool)
    (key : CacheKey) (stem text : String) (payload : Bytes) :
    store.resolveDespite fails key [stem] = ⟨.partialHit text, payload⟩ ↔
      store.Lacks fails key ∧ store.Answers .newest (fails 1) ∧
        ∃ entry, store.IsNewest stem entry ∧ entry.key = text ∧ entry.payload = payload := by
  rw [resolveDespite_eq_iff h]
  constructor
  · intro hprefers
    cases hprefers with
    | partialHit n found entry hlacks hpasses hstem hanswers hnewest =>
      cases n with
      | zero =>
        obtain rfl : stem = found := Option.some.inj hstem
        exact ⟨hlacks, hanswers, entry, hnewest, rfl, rfl⟩
      | succ n => simp at hstem
  · intro hfound
    obtain ⟨hlacks, hanswers, entry, hnewest, rfl, rfl⟩ := hfound
    exact .partialHit 0 stem entry hlacks (fun m hm => absurd hm (Nat.not_lt_zero m)) rfl
      hanswers hnewest

theorem resolveDespite_false (store : CacheStore) (key : CacheKey) (stems : List String) :
    store.resolveDespite (fun _ => false) key stems = store.resolve key stems := by
  have hothers : (stems.mapIdx fun _ stem => Lookup.orFails false .newest (store.newest stem)) =
      stems.map store.newest := by
    apply List.ext_getElem?
    intro n
    rw [List.getElem?_mapIdx, List.getElem?_map]
    rfl
  rw [resolveDespite, resolve, hothers]
  rfl

end

end CacheStore

end BuildMatrix
