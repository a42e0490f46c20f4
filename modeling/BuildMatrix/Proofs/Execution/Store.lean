import BuildMatrix.Proofs.Cache.Entries
import BuildMatrix.Proofs.Execution.Run
import Mathlib.Data.List.Infix

/-!
# The store of an execution

All runs of an execution share one store and, as long as the manifest stays as it is, one key.
Between the look-up of a run and its write any other run may have written. Whatever the order of
the turns, only the first write of the key is kept: every other run that completed found the key or
is told that it exists already, and no other run writes.
-/

namespace BuildMatrix

/-- The outcome of a write, if the entry tells of one. -/
def Entry.saved? : Entry → Option PutOutcome
  | .event (.cacheSaved _ _ outcome) => some outcome
  | _ => none

/-- What a run that has ended tells of the cache. -/
structure Settled (derived : Except ManifestError CacheKey) (log : EntryLog) (wrote : Prop)
    (cacheKey : Option String) (cacheStatus : Option CacheStatus) (status : RunStatus) : Prop where
  unfinished : status ≠ .completed → ¬wrote
  unkeyed : status = .completed → cacheKey = none → (∀ key, derived ≠ .ok key) ∧ ¬wrote
  keyed : status = .completed → ∀ text, cacheKey = some text →
    (∃ key, derived = .ok key ∧ text = key.render) ∧
      (cacheStatus = some .hit ∧ ¬wrote ∧ log.Has text ∨ cacheStatus ≠ some .hit ∧ wrote)

theorem Settled.mono {derived : Except ManifestError CacheKey} {log log' : EntryLog} {wrote : Prop}
    {cacheKey : Option String} {cacheStatus : Option CacheStatus} {status : RunStatus}
    (h : Settled derived log wrote cacheKey cacheStatus status)
    (hlog : ∀ key, log.Has key → log'.Has key) :
    Settled derived log' wrote cacheKey cacheStatus status where
  unfinished := h.unfinished
  unkeyed := h.unkeyed
  keyed hs text ht := by
    obtain ⟨hkey, ⟨hhit, hwrote, hhas⟩ | hmiss⟩ := h.keyed hs text ht
    · exact ⟨hkey, .inl ⟨hhit, hwrote, hlog text hhas⟩⟩
    · exact ⟨hkey, .inr hmiss⟩

namespace Task

/-- The entry that the next turn of a task writes, if it writes one. -/
def put? (task : Task) (now : Instant) : Option CacheEntry :=
  match task.stage with
  | .saving _ key _ _ payload => some ⟨key.render, payload, now⟩
  | _ => none

/-- Whether a task does not fail to pack its cache directory in its next turn. -/
def packs (job : Job) (files : FileSystem) (task : Task) : Bool :=
  match task.stage with
  | .packing .. => (Archive.pack files (job.workflow.cache.directoryFor task.plan)).isOk
  | _ => true

/-- A run has the key that is derived, and what it found under the key is in the store. -/
def Fits (derived : Except ManifestError CacheKey) (log : EntryLog) : RestoredCache → Prop
  | none => ∀ key, derived ≠ .ok key
  | some (key, status) => derived = .ok key ∧ (status = .hit → log.Has key.render)

/-- What a stage tells of the cache, and whether the task has written. -/
def Cached (derived : Except ManifestError CacheKey) (log : EntryLog) (wrote : Prop) : Stage → Prop
  | .lookingUp _ key _ => ¬wrote ∧ derived = .ok key
  | .restoring _ key found =>
    ¬wrote ∧ derived = .ok key ∧ (found.status = .hit → log.Has key.render)
  | .stepping _ cache _ => ¬wrote ∧ Fits derived log cache
  | .packing _ key status _ | .saving _ key status _ _ =>
    ¬wrote ∧ derived = .ok key ∧ status ≠ .hit
  | .closing _ cache _ status =>
    Settled derived log wrote (cache.map fun c => c.1.render) (cache.map (·.2)) status
  | .finished run => Settled derived log wrote run.cacheKey run.cacheStatus run.status
  | _ => ¬wrote

section
variable {derived : Except ManifestError CacheKey} {log log' : EntryLog} {wrote : Prop}

theorem Fits.mono {cache : RestoredCache} (h : Fits derived log cache)
    (hlog : ∀ key, log.Has key → log'.Has key) : Fits derived log' cache := by
  match cache, h with
  | none, h => exact h
  | some (key, status), ⟨hkey, hhit⟩ => exact ⟨hkey, fun hs => hlog _ (hhit hs)⟩

theorem Cached.mono {stage : Stage} (h : Cached derived log wrote stage)
    (hlog : ∀ key, log.Has key → log'.Has key) : Cached derived log' wrote stage := by
  cases stage with
  | restoring setup key found => exact ⟨h.1, h.2.1, fun hs => hlog _ (h.2.2 hs)⟩
  | stepping setup cache progress => exact ⟨h.1, h.2.mono hlog⟩
  | closing workspace cache results status => exact Settled.mono h hlog
  | finished run => exact Settled.mono h hlog
  | _ => exact h

theorem settled_of_ne {cacheKey : Option String} {cacheStatus : Option CacheStatus}
    {status : RunStatus} (hs : status ≠ .completed) (hw : ¬wrote) :
    Settled derived log wrote cacheKey cacheStatus status :=
  ⟨fun _ => hw, fun h => absurd h hs, fun h => absurd h hs⟩

theorem cached_afterSteps (setup : Setup) {cache : RestoredCache} (progress : Progress)
    (hw : ¬wrote) (hc : Fits derived log cache) :
    Cached derived log wrote (afterSteps setup cache progress) := by
  cases progress with
  | ready results rest => exact ⟨hw, hc⟩
  | busy results step rest handed startedAt => exact ⟨hw, hc⟩
  | aborted message => exact hw
  | ended results status =>
      cases status with
      | failed step failure => exact settled_of_ne (by simp) hw
      | cancelled step => exact settled_of_ne (by simp) hw
      | completed =>
          match cache, hc with
          | none, hc => exact ⟨fun h => absurd rfl h, fun _ _ => ⟨hc, hw⟩, by simp⟩
          | some (key, .hit), ⟨hkey, hhit⟩ =>
              refine ⟨fun h => absurd rfl h, by simp, fun _ text ht => ?_⟩
              obtain rfl : key.render = text := by simpa using ht
              exact ⟨⟨key, hkey, rfl⟩, .inl ⟨rfl, hw, hhit rfl⟩⟩
          | some (key, .partialHit other), ⟨hkey, hhit⟩ => exact ⟨hw, hkey, by simp⟩
          | some (key, .miss), ⟨hkey, hhit⟩ => exact ⟨hw, hkey, by simp⟩

end

theorem saved?_entryOf (plan : Plan) (notice : Notice) : (entryOf plan notice).saved? = none := by
  cases notice <;> rfl

theorem storeAnswer_of_working {α : Type} {reply : Reply} (hr : reply.storeFails = false)
    (method : StoreMethod) (answer : Except StoreError α) :
    storeAnswer reply method answer = answer := by
  simp [storeAnswer, hr]

theorem saved?_request (version : String) (asked : Bool) :
    (request version asked).filterMap Entry.saved? = [] := by
  cases asked <;> rfl

section
variable {job : Job} {reply : Reply} {shared : Shared} {task : Task}
  {derived : Except ManifestError CacheKey} {wrote : Prop}

theorem turn_of_put?_eq_none (hp : task.put? shared.scene.clock = none)
    (hw : shared.store.failing = []) (hr : reply.storeFails = false)
    (hpacks : task.packs job shared.scene.files)
    (hd : job.workflow.cache.keyFor shared.scene.files job.directory = derived)
    (hc : Cached derived shared.store.log wrote task.stage) :
    (task.turn job reply shared).shared.store = shared.store ∧
      (task.turn job reply shared).entries.filterMap Entry.saved? = [] ∧
      Cached derived shared.store.log wrote (task.turn job reply shared).stage := by
  have ht := takes_turn job reply shared task
  generalize task.turn job reply shared = turn at ht ⊢
  unfold put? at hp
  unfold packs at hpacks
  generalize task.stage = stage at ht hp hpacks hc
  cases ht with
  | spawned => exact ⟨rfl, rfl, hc⟩
  | begunCancelled _ => exact ⟨rfl, rfl, settled_of_ne (by simp) hc⟩
  | begunWithoutVersion _ _ => exact ⟨rfl, rfl, settled_of_ne (by simp) hc⟩
  | begun version _ _ => exact ⟨rfl, rfl, hc⟩
  | stagingFailed version files e _ => exact ⟨rfl, rfl, settled_of_ne (by simp) hc⟩
  | staged version files workspace _ => exact ⟨rfl, rfl, hc⟩
  | provisioningCancelled version workspace asked _ =>
      exact ⟨rfl, rfl, settled_of_ne (by simp) hc⟩
  | provisioningWaits version workspace asked _ _ => exact ⟨rfl, saved?_request _ _, hc⟩
  | provisioningPanics version workspace asked message _ _ =>
      exact ⟨by simp, saved?_request _ _, hc⟩
  | provisioningFailed version workspace asked e _ _ =>
      exact ⟨rfl, saved?_request _ _, settled_of_ne (by simp) hc⟩
  | provisioned version workspace asked toolchain _ _ =>
      exact ⟨rfl, by simp [saved?_request, Entry.saved?], hc⟩
  | withoutKey setup e hk =>
      refine ⟨rfl, rfl, hc, fun key hkey => ?_⟩
      rw [← hd, hk] at hkey
      cases hkey
  | withKey setup key hk => exact ⟨rfl, rfl, hc, hd ▸ hk⟩
  | found setup key entry hg =>
      refine ⟨rfl, rfl, hc.1, hc.2, fun _ => ?_⟩
      obtain ⟨answer, hget, hsome⟩ := CacheStore.get_isSome_iff hw key.render
      rw [storeAnswer_of_working hr, hget, Except.ok.injEq] at hg
      exact hsome.mp (by simp [hg])
  | notFound setup key _ => exact ⟨rfl, rfl, hc⟩
  | missed setup key => exact ⟨rfl, rfl, hc.1, hc.2, by simp [Resolution.miss]⟩
  | foundOther setup key stem stems entry _ => exact ⟨rfl, rfl, hc.1, hc.2, by simp⟩
  | notFoundOther setup key stem stems _ => exact ⟨rfl, rfl, hc⟩
  | restored setup key found files status hrestore =>
      refine ⟨rfl, rfl, hc.1, hc.2.1, fun hs => hc.2.2 ?_⟩
      subst hs
      unfold Resolution.restore at hrestore
      split at hrestore
      · simpa using congrArg Prod.snd hrestore
      · simp at hrestore
  | stepped setup cache progress turn _ _ =>
      refine ⟨rfl, ?_, cached_afterSteps setup turn.progress hc.1 hc.2⟩
      simp [saved?_entryOf]
  | stepPanics setup cache progress turn message _ _ =>
      refine ⟨by simp, ?_, hc.1⟩
      simp [saved?_entryOf]
  | packed setup key status results payload _ => exact ⟨rfl, rfl, hc⟩
  | notPacked setup key status results e he =>
      simp only [he] at hpacks
      cases hpacks
  | saved setup key status results payload store outcome _ => simp at hp
  | notSaved setup key status results payload e _ => simp at hp
  | closed workspace cache results status => exact ⟨by simp, rfl, hc⟩
  | ended stage _ => exact ⟨rfl, rfl, hc⟩

theorem turn_of_put?_eq_some (job : Job) {entry : CacheEntry}
    (hp : task.put? shared.scene.clock = some entry)
    (hv : shared.store.Valid) (hw : shared.store.failing = []) (hr : reply.storeFails = false)
    (hc : Cached derived shared.store.log wrote task.stage) :
    (∃ key, derived = .ok key ∧ entry.key = key.render) ∧
      (task.turn job reply shared).shared.store.Valid ∧
      (task.turn job reply shared).shared.store.failing = [] ∧
      (task.turn job reply shared).shared.store.log = (shared.store.log.put entry).1 ∧
      (task.turn job reply shared).entries.filterMap Entry.saved? =
        [(shared.store.log.put entry).2] ∧
      Cached derived (shared.store.log.put entry).1 True (task.turn job reply shared).stage := by
  have ht := takes_turn job reply shared task
  generalize task.turn job reply shared = turn at ht ⊢
  unfold put? at hp
  generalize task.stage = stage at ht hp hc
  have hstore := CacheStore.put_eq hv hw entry
  cases ht with
  | saved setup key status results payload store outcome hput =>
      obtain rfl : ⟨key.render, payload, shared.scene.clock⟩ = entry := by simpa using hp
      obtain ⟨next, hnext, hlog, hvalid, hworking⟩ := hstore
      rw [storeAnswer_of_working hr, hnext, Except.ok.injEq, Prod.mk.injEq] at hput
      obtain ⟨rfl, rfl⟩ := hput
      refine ⟨⟨key, hc.2.1, rfl⟩, hvalid, hworking, hlog, rfl, ?_⟩
      refine ⟨fun h => absurd rfl h, by simp, fun _ text ht => ?_⟩
      obtain rfl : key.render = text := by simpa using ht
      exact ⟨⟨key, hc.2.1, rfl⟩, .inr ⟨by simpa using hc.2.2, trivial⟩⟩
  | notSaved setup key status results payload e hput =>
      obtain rfl : ⟨key.render, payload, shared.scene.clock⟩ = entry := by simpa using hp
      obtain ⟨next, hnext, -⟩ := hstore
      rw [storeAnswer_of_working hr, hnext] at hput
      cases hput
  | ended stage hover => rcases hover with ⟨run, rfl⟩ | ⟨message, rfl⟩ <;> simp at hp
  | _ => simp at hp

end

end Task

namespace Execution

def write? (e : Execution) : Move → Option (Nat × CacheEntry)
  | .turn position _ => do
    let task ← e.tasks[position]?
    let entry ← task.put? e.shared.scene.clock
    some (position, entry)
  | _ => none

/-- Whether a move does not fail to pack a cache directory. -/
def packs (e : Execution) : Move → Bool
  | .turn position _ => e.tasks[position]?.all fun task => task.packs e.job e.shared.scene.files
  | _ => true

def writes : Execution → List Move → List (Nat × CacheEntry)
  | _, [] => []
  | e, move :: moves => (e.write? move).toList ++ (e.move move).writes moves

def saves (e : Execution) : List (Nat × PutOutcome) :=
  e.log.filterMap fun l => do
    let position ← l.task
    let outcome ← l.entry.saved?
    some (position, outcome)

def outcomes : EntryLog → List (Nat × CacheEntry) → List (Nat × PutOutcome)
  | _, [] => []
  | log, (position, entry) :: writes =>
    (position, (log.put entry).2) :: outcomes (log.put entry).1 writes

theorem outcomes_concat (log : EntryLog) (writes : List (Nat × CacheEntry)) (position : Nat)
    (entry : CacheEntry) :
    outcomes log (writes ++ [(position, entry)]) =
      outcomes log writes ++ [(position, ((log.putAll (writes.map (·.2))).put entry).2)] := by
  induction writes generalizing log with
  | nil => rfl
  | cons write writes ih => simp only [List.cons_append, outcomes, ih]; rfl

section
variable {log : EntryLog} {key : String} {writes : List (Nat × CacheEntry)}

theorem outcomes_of_has (hk : log.Has key) (h : ∀ write ∈ writes, write.2.key = key) :
    outcomes log writes = writes.map fun write => (write.1, .alreadyExists) := by
  induction writes with
  | nil => rfl
  | cons write writes ih =>
      obtain ⟨position, entry⟩ := write
      have he : entry.key = key := h (position, entry) (by simp)
      have hput := EntryLog.put_of_has (he ▸ hk)
      simp only [outcomes, hput, List.map_cons]
      rw [ih fun w hw => h w (List.mem_cons_of_mem _ hw)]

theorem outcomes_of_not_has {write : Nat × CacheEntry} (hk : ¬log.Has key)
    (h : ∀ w ∈ write :: writes, w.2.key = key) :
    outcomes log (write :: writes) =
      (write.1, .stored) :: writes.map fun w => (w.1, .alreadyExists) := by
  obtain ⟨position, entry⟩ := write
  have he : entry.key = key := h (position, entry) (by simp)
  have hput := EntryLog.put_of_not_has (he ▸ hk)
  have hnow : (log.put entry).1.Has key := he ▸ EntryLog.has_put_self
  simp only [outcomes]
  rw [outcomes_of_has hnow fun w hw => h w (List.mem_cons_of_mem _ hw), hput]

end

/-- The store holds what it held at first and the writes so far, and the log tells of all of
them. -/
structure Stored (derived : Except ManifestError CacheKey) (before : EntryLog)
    (writes : List (Nat × CacheEntry)) (e : Execution) : Prop where
  valid : e.shared.store.Valid
  working : e.shared.store.failing = []
  log : e.shared.store.log = before.putAll (writes.map (·.2))
  saves : e.saves = outcomes before writes
  keys : ∀ write ∈ writes, ∃ key, derived = .ok key ∧ write.2.key = key.render
  positions : ∀ write ∈ writes, write.1 < e.tasks.length
  tasks : ∀ (position : Nat) (task : Task), e.tasks[position]? = some task →
    Task.Cached derived e.shared.store.log (position ∈ writes.map (·.1)) task.stage

theorem saves_append (e : Execution) (position : Nat) (entries : List Entry) :
    saves { e with log := e.log ++ entries.map fun entry => ⟨some position, entry⟩ } =
      e.saves ++ (entries.filterMap Entry.saved?).map fun outcome => (position, outcome) := by
  simp only [saves, List.filterMap_append, List.filterMap_map, List.map_filterMap]
  congr 2
  funext entry
  cases hs : entry.saved? <;> simp [hs]

theorem stored_start (job : Job) (event : String) (id : Ident) {shared : Shared}
    (hv : shared.store.Valid) (hw : shared.store.failing = []) :
    Stored (job.workflow.cache.keyFor shared.scene.files job.directory) shared.store.log []
      (start job event id shared) where
  valid := hv
  working := hw
  log := rfl
  saves := rfl
  keys := by simp
  positions := by simp
  tasks position task ht := by
    obtain ⟨plan, rfl⟩ := exists_spawn ht
    exact List.not_mem_nil

section
variable {derived : Except ManifestError CacheKey} {before : EntryLog}
  {writes : List (Nat × CacheEntry)} {e : Execution}

/-- A turn of a task keeps what can be said of the others, as long as the store loses no key. -/
theorem Stored.tasks_set (h : Stored derived before writes e) {position : Nat} {next : Task}
    {log : EntryLog} {writes' : List (Nat × CacheEntry)}
    (hlog : ∀ key, e.shared.store.log.Has key → log.Has key)
    (hothers : ∀ other, other ≠ position →
      (other ∈ writes'.map (·.1) ↔ other ∈ writes.map (·.1)))
    (hnext : Task.Cached derived log (position ∈ writes'.map (·.1)) next.stage)
    {other : Nat} {task' : Task} (ht' : (e.tasks.set position next)[other]? = some task') :
    Task.Cached derived log (other ∈ writes'.map (·.1)) task'.stage := by
  obtain ⟨rfl, rfl⟩ | ⟨hp, ht'⟩ := tasks_set_cases ht'
  · exact hnext
  · rw [propext (hothers other (Ne.symm hp))]
    exact (h.tasks other task' ht').mono hlog

theorem Stored.turn (h : Stored derived before writes e) (position : Nat) {reply : Reply}
    (hr : reply.storeFails = false) (hpacks : e.packs (.turn position reply))
    (hd : e.job.workflow.cache.keyFor e.shared.scene.files e.job.directory = derived) :
    Stored derived before (writes ++ (e.write? (.turn position reply)).toList)
      (e.turn position reply) := by
  cases ht : e.tasks[position]? with
  | none => simpa [write?, ht, turn_eq_self ht] using h
  | some task =>
      have hcached := h.tasks position task ht
      cases hp : task.put? e.shared.scene.clock with
      | none =>
          obtain ⟨hstore, hsaved, hnext⟩ :=
            Task.turn_of_put?_eq_none hp h.working hr (by simpa [packs, ht] using hpacks) hd hcached
          simp only [write?, ht, hp, Option.bind_eq_bind, Option.bind_some, Option.bind_none,
            Option.toList_none, List.append_nil]
          rw [turn_eq ht]
          exact
            { valid := hstore ▸ h.valid
              working := hstore ▸ h.working
              log := hstore ▸ h.log
              saves := by
                have hs := saves_append e position (task.turn e.job reply e.shared).entries
                rw [hsaved, List.map_nil, List.append_nil, h.saves] at hs
                exact hs
              keys := h.keys
              positions := by simpa using h.positions
              tasks := fun other task' ht' => by
                refine h.tasks_set ?_ ?_ ?_ ht'
                · exact fun key hkey => hstore.symm ▸ hkey
                · exact fun _ _ => Iff.rfl
                · exact hstore.symm ▸ hnext }
      | some entry =>
          obtain ⟨hkey, hvalid, hworking, hlog, hsaved, hnext⟩ :=
            Task.turn_of_put?_eq_some e.job hp h.valid h.working hr hcached
          simp only [write?, ht, hp, Option.bind_eq_bind, Option.bind_some, Option.toList_some]
          rw [turn_eq ht]
          exact
            { valid := hvalid
              working := hworking
              log := by
                rw [List.map_append, List.map_singleton, EntryLog.putAll_concat, ← h.log]
                exact hlog
              saves := by
                have hs := saves_append e position (task.turn e.job reply e.shared).entries
                rw [hsaved, h.saves, h.log] at hs
                rw [outcomes_concat]
                exact hs
              keys := by
                intro write hw
                rcases List.mem_append.mp hw with hw | hw
                · exact h.keys write hw
                · rw [List.mem_singleton.mp hw]
                  exact hkey
              positions := by
                intro write hw
                rw [List.length_set]
                rcases List.mem_append.mp hw with hw | hw
                · exact h.positions write hw
                · rw [List.mem_singleton.mp hw]
                  exact (List.getElem?_eq_some_iff.mp ht).choose
              tasks := fun other task' ht' => by
                refine h.tasks_set ?_ ?_ ?_ ht'
                · intro key hk
                  rw [hlog]
                  exact EntryLog.has_put hk
                · intro other hne
                  simp [hne]
                · rw [hlog]
                  simpa using hnext }

theorem Stored.join (h : Stored derived before writes e) : Stored derived before writes e.join := by
  have hj := e.joins_join
  generalize e.join = next at hj ⊢
  cases hj with
  | finished task run _ _ =>
      exact ⟨h.valid, h.working, h.log, h.saves, h.keys, h.positions, h.tasks⟩
  | aborted task message _ _ =>
      refine ⟨h.valid, h.working, h.log, ?_, h.keys, h.positions, h.tasks⟩
      rw [← h.saves]
      simp [Execution.saves, Entry.saved?]
  | completed _ _ =>
      refine ⟨h.valid, h.working, h.log, ?_, h.keys, h.positions, h.tasks⟩
      rw [← h.saves]
      simp [Execution.saves, announce]
  | waits => exact h

theorem Stored.move (h : Stored derived before writes e) (move : Move)
    (hr : ∀ position reply, move = .turn position reply → reply.storeFails = false)
    (hpacks : e.packs move)
    (hd : e.job.workflow.cache.keyFor e.shared.scene.files e.job.directory = derived) :
    Stored derived before (writes ++ (e.write? move).toList) (e.move move) := by
  cases move with
  | cancel =>
      rw [show (e.write? .cancel).toList = [] from rfl, List.append_nil]
      exact ⟨h.valid, h.working, h.log, h.saves, h.keys, h.positions, h.tasks⟩
  | tick now =>
      rw [show (e.write? (.tick now)).toList = [] from rfl, List.append_nil]
      exact ⟨h.valid, h.working, h.log, h.saves, h.keys, h.positions, h.tasks⟩
  | turn position reply => exact h.turn position (hr position reply rfl) hpacks hd
  | join =>
      rw [show (e.write? .join).toList = [] from rfl, List.append_nil]
      exact h.join

theorem Stored.run (h : Stored derived before writes e) (moves : List Move)
    (hr : ∀ position reply, .turn position reply ∈ moves → reply.storeFails = false)
    (hpacks : ∀ done move, done ++ [move] <+: moves → (e.run done).packs move)
    (hd : ∀ done, done <+: moves → e.job.workflow.cache.keyFor (e.run done).shared.scene.files
      e.job.directory = derived) :
    Stored derived before (writes ++ e.writes moves) (e.run moves) := by
  induction moves generalizing e writes with
  | nil => simpa [Execution.writes] using h
  | cons move moves ih =>
      have hmove := h.move move (fun position reply hm => hr position reply (by simp [hm]))
        (hpacks [] move (List.cons_prefix_cons.mpr ⟨rfl, List.nil_prefix⟩)) (hd [] List.nil_prefix)
      have hrest := ih hmove (fun position reply hm => hr position reply (by simp [hm]))
        (fun done next hdone => by
          simpa using hpacks (move :: done) next (List.cons_prefix_cons.mpr ⟨rfl, hdone⟩))
        fun done hdone => by
          simpa using hd (move :: done) (List.cons_prefix_cons.mpr ⟨rfl, hdone⟩)
      rwa [List.append_assoc] at hrest

theorem settled_runOf {log : EntryLog} {wrote : Prop} {task : Task} {run : Run}
    (hc : Task.Cached derived log wrote task.stage) (hr : RunOf task run) :
    Settled derived log wrote run.cacheKey run.cacheStatus run.status := by
  cases hr with
  | finished run hs => rwa [hs] at hc
  | aborted message now hs =>
      rw [hs] at hc
      exact Task.settled_of_ne (by simp [abortedRun, abortedStatus]) hc

end

/-- What a complete execution has left in a store, when all its runs derive the same key. -/
structure Leaves (derived : Except ManifestError CacheKey) (before : CacheStore)
    (writes : List (Nat × CacheEntry)) (e : Execution) (runs : List Run)
    (added : Option CacheEntry) : Prop where
  entries : e.shared.store.entries = before.entries ++ added.toList
  key : ∀ entry ∈ added, ∃ key, derived = .ok key ∧ entry.key = key.render
  added_iff : added.isSome ↔ ∃ key, derived = .ok key ∧ ¬before.log.Has key.render ∧
    ∃ run ∈ runs, run.cacheKey.isSome ∧ run.status = .completed
  /-- One run is told that its entry was stored, all others that completed found the key or are
  told that it exists. -/
  stored : added.isSome → ∃ (position : Nat) (run : Run), runs[position]? = some run ∧
    run.status = .completed ∧ e.saves.filter (·.2 = .stored) = [(position, .stored)] ∧
    ∀ (other : Nat) (run : Run), other ≠ position → runs[other]? = some run →
      run.status = .completed → run.cacheStatus = some .hit ∨ (other, .alreadyExists) ∈ e.saves
  notStored : added = none → e.saves.filter (·.2 = .stored) = []
  /-- Only runs that completed write anything. -/
  writers : ∀ write ∈ writes, ∃ run, runs[write.1]? = some run ∧ run.status = .completed

section
variable {derived : Except ManifestError CacheKey} {before : CacheStore}
  {writes : List (Nat × CacheEntry)} {e : Execution} {runs : List Run}

theorem filter_stored_alreadyExists (writes : List (Nat × CacheEntry)) :
    (writes.map fun write => (write.1, PutOutcome.alreadyExists)).filter (·.2 = .stored) = [] := by
  refine List.filter_eq_nil_iff.mpr fun save hsave => ?_
  obtain ⟨write, -, rfl⟩ := List.mem_map.mp hsave
  simp

/-- Nothing is added to a store that has the key, or when nobody writes. -/
theorem Stored.leaves_none (h : Stored derived before.log writes e)
    (hsettled : ∀ (position : Nat) (run : Run), runs[position]? = some run →
      Settled derived e.shared.store.log (position ∈ writes.map (·.1)) run.cacheKey
        run.cacheStatus run.status)
    (hwriters : ∀ write ∈ writes, ∃ run, runs[write.1]? = some run ∧ run.status = .completed)
    (hnone : writes = [] ∨ ∃ key, derived = .ok key ∧ before.log.Has key.render) :
    Leaves derived before writes e runs none := by
  have hkept : e.shared.store.log = before.log ∧ e.saves.filter (·.2 = .stored) = [] := by
    rcases hnone with rfl | ⟨key, hkey, hhas⟩
    · exact ⟨h.log, by simp [h.saves, outcomes]⟩
    · have hkeys : ∀ write ∈ writes, write.2.key = key.render := by
        intro write hw
        obtain ⟨key', hkey', hw⟩ := h.keys write hw
        rw [hkey, Except.ok.injEq] at hkey'
        rw [hw, hkey']
      constructor
      · rw [h.log]
        refine EntryLog.putAll_of_has hhas fun entry hentry => ?_
        obtain ⟨write, hw, rfl⟩ := List.mem_map.mp hentry
        exact hkeys write hw
      · rw [h.saves, outcomes_of_has hhas hkeys]
        exact filter_stored_alreadyExists writes
  obtain ⟨hlog, hsaves⟩ := hkept
  refine ⟨?_, by simp, ?_, by simp, fun _ => hsaves, hwriters⟩
  · simpa [CacheStore.log] using hlog
  · simp only [Option.isSome_none, Bool.false_eq_true, false_iff]
    rintro ⟨key, hkey, hnew, run, hrun, hk, hs⟩
    rcases hnone with rfl | ⟨key', hkey', hhas⟩
    · obtain ⟨position, hposition⟩ := List.mem_iff_getElem?.mp hrun
      obtain ⟨text, htext⟩ := Option.isSome_iff_exists.mp hk
      obtain ⟨⟨key', hkey', rfl⟩, ⟨-, -, hhas⟩ | ⟨-, hwrote⟩⟩ :=
        (hsettled position run hposition).keyed hs text htext
      · rw [hkey, Except.ok.injEq] at hkey'
        exact hnew (hlog ▸ hkey' ▸ hhas)
      · simp at hwrote
    · rw [hkey, Except.ok.injEq] at hkey'
      exact hnew (hkey' ▸ hhas)

/-- The first write to a store without the key is the one that is kept. -/
theorem Stored.leaves_some {write : Nat × CacheEntry} {key : CacheKey}
    (h : Stored derived before.log (write :: writes) e)
    (hsettled : ∀ (position : Nat) (run : Run), runs[position]? = some run →
      Settled derived e.shared.store.log (position ∈ (write :: writes).map (·.1)) run.cacheKey
        run.cacheStatus run.status)
    (hwriters : ∀ w ∈ write :: writes, ∃ run, runs[w.1]? = some run ∧ run.status = .completed)
    (hkey : derived = .ok key) (hnew : ¬before.log.Has key.render) :
    Leaves derived before (write :: writes) e runs (some write.2) := by
  have hkeys : ∀ w ∈ write :: writes, w.2.key = key.render := by
    intro w hw
    obtain ⟨key', hkey', hw⟩ := h.keys w hw
    rw [hkey, Except.ok.injEq] at hkey'
    rw [hw, hkey']
  have hlog : e.shared.store.log = ⟨before.log.entries ++ [write.2]⟩ := by
    rw [h.log, EntryLog.putAll_of_not_has hnew]
    · simp
    · intro entry hentry
      obtain ⟨w, hw, rfl⟩ := List.mem_map.mp hentry
      exact hkeys w hw
  have hsaves := h.saves
  rw [outcomes_of_not_has hnew hkeys] at hsaves
  obtain ⟨first, hfirst, hcompleted⟩ := hwriters write (by simp)
  have hcacheKey : first.cacheKey.isSome := by
    by_contra hn
    exact ((hsettled write.1 first hfirst).unkeyed hcompleted (by simpa using hn)).1 key hkey
  refine ⟨by simpa [CacheStore.log] using hlog, ?_, ?_, fun _ => ?_, by simp, hwriters⟩
  · intro entry hentry
    obtain rfl : write.2 = entry := by simpa using hentry
    exact ⟨key, hkey, hkeys write (by simp)⟩
  · simp only [Option.isSome_some, true_iff]
    exact ⟨key, hkey, hnew, first, List.mem_of_getElem? hfirst, hcacheKey, hcompleted⟩
  · refine ⟨write.1, first, hfirst, hcompleted, ?_, fun other run hother hrun hs => ?_⟩
    · rw [hsaves, List.filter_cons_of_pos (by simp), filter_stored_alreadyExists]
    · have hrunSettled := hsettled other run hrun
      cases hk : run.cacheKey with
      | none => exact absurd hkey ((hrunSettled.unkeyed hs hk).1 key)
      | some text =>
          rcases (hrunSettled.keyed hs text hk).2 with ⟨hhit, -, -⟩ | ⟨-, hwrote⟩
          · exact .inl hhit
          · obtain ⟨w, hw, rfl⟩ : ∃ w ∈ writes, w.1 = other := by
              simpa [hother] using hwrote
            rw [hsaves]
            exact .inr (List.mem_cons_of_mem _ (List.mem_map.mpr ⟨w, hw, rfl⟩))

theorem Stored.leaves (h : Stored derived before.log writes e) (hj : Joined e) {report : Report}
    (hreport : e.report? = some report) :
    ∃ added, Leaves derived before writes e report.runs added := by
  obtain ⟨hruns, hlength, -⟩ := report_runs hj hreport
  have hsettled (position : Nat) (run : Run) (hrun : report.runs[position]? = some run) :
      Settled derived e.shared.store.log (position ∈ writes.map (·.1)) run.cacheKey
        run.cacheStatus run.status := by
    obtain ⟨task, ht, hr⟩ := hj.runs position run (hruns ▸ hrun)
    exact settled_runOf (h.tasks position task ht) hr
  have hwriters : ∀ write ∈ writes,
      ∃ run, report.runs[write.1]? = some run ∧ run.status = .completed := by
    intro write hw
    have hlt := h.positions write hw
    have hrun := List.getElem?_eq_getElem (l := report.runs) (i := write.1) (by omega)
    refine ⟨_, hrun, ?_⟩
    by_contra hs
    exact (hsettled _ _ hrun).unfinished hs (List.mem_map_of_mem hw)
  cases writes with
  | nil => exact ⟨none, h.leaves_none hsettled hwriters (.inl rfl)⟩
  | cons write writes =>
      obtain ⟨key, hkey, -⟩ := h.keys write (by simp)
      by_cases hhas : before.log.Has key.render
      · exact ⟨none, h.leaves_none hsettled hwriters (.inr ⟨key, hkey, hhas⟩)⟩
      · exact ⟨_, h.leaves_some hsettled hwriters hkey hhas⟩

end

/-- Whatever the order of the turns and however the host answers, a store in order gains at most one
entry, that of the first run that completed without it, if the cache directories can be packed. -/
theorem store_gains_first_write {job : Job} {event : String} {id : Ident} {shared : Shared}
    {moves : List Move} {report : Report} (hvalid : shared.store.Valid)
    (hworking : shared.store.failing = [])
    (hanswers : ∀ position reply, .turn position reply ∈ moves → reply.storeFails = false)
    (hpacks : ∀ done move, done ++ [move] <+: moves →
      ((start job event id shared).run done).packs move)
    (hmanifest : ∀ done, done <+: moves →
      job.workflow.cache.keyFor ((start job event id shared).run done).shared.scene.files
        job.directory = job.workflow.cache.keyFor shared.scene.files job.directory)
    (hreport : ((start job event id shared).run moves).report? = some report) :
    ∃ added, Leaves (job.workflow.cache.keyFor shared.scene.files job.directory) shared.store
      ((start job event id shared).writes moves) ((start job event id shared).run moves)
      report.runs added := by
  have hstored := (stored_start job event id hvalid hworking).run moves hanswers hpacks hmanifest
  rw [List.nil_append] at hstored
  exact hstored.leaves (joined_run (joined_start job event id shared) moves) hreport

def twoRuns : Job :=
  { workflow :=
      { name := "ci"
        triggers := ["push"]
        matrix := ⟨[⟨"py", ["3.8", "3.9"]⟩], []⟩
        versionAxis := "py"
        cache := ⟨"pins", "/cache", "pip", []⟩
        environment := .empty
        steps := [⟨"test", .runTests, .shell "test" [], 60⟩] }
    directory := "/package"
    temporary := "/tmp" }

def freshShared : Shared :=
  { scene :=
      { files := ⟨.directory (.ofList [("tmp", .directory .nil), ("package", .directory .nil)]), []⟩
        cancelled := false
        clock := .epoch }
    store := .inMemory }

def goodReply : Reply :=
  { Reply.none with
    toolchain := .ready (.ok ⟨"3.9", "python3.9"⟩)
    output := .ready (.ok ⟨some 0, "", ""⟩) }

/-- Both tasks take turns until they are over, and are joined. -/
def alternatingMoves : List Move :=
  (List.replicate 17 [.turn 0 goodReply, .turn 1 goodReply]).flatten ++ [.join, .join, .join]

theorem reply_of_mem_alternatingMoves {position : Nat} {reply : Reply}
    (h : .turn position reply ∈ alternatingMoves) : reply = goodReply := by
  simp only [alternatingMoves, List.mem_append, List.mem_flatten, List.mem_replicate,
    List.mem_cons, List.not_mem_nil, reduceCtorEq, or_false] at h
  obtain ⟨turns, ⟨-, rfl⟩, hturn⟩ := h
  simp only [List.mem_cons, Move.turn.injEq, List.not_mem_nil, or_false] at hturn
  rcases hturn with ⟨-, hreply⟩ | ⟨-, hreply⟩
  · exact hreply
  · exact hreply

/-- Two runs miss the cache before either of them has saved it, and both complete. -/
theorem store_gains_first_write_alternating :
    ∃ report, ((start twoRuns "push" .zero freshShared).run alternatingMoves).report? =
      some report ∧ ∃ added, Leaves
        (twoRuns.workflow.cache.keyFor freshShared.scene.files twoRuns.directory)
        freshShared.store ((start twoRuns "push" .zero freshShared).writes alternatingMoves)
        ((start twoRuns "push" .zero freshShared).run alternatingMoves) report.runs added := by
  have hsome : ((start twoRuns "push" .zero freshShared).run alternatingMoves).report?.isSome := by
    decide +kernel
  have hmanifest : alternatingMoves.inits.all fun done =>
      twoRuns.workflow.cache.keyFor ((start twoRuns "push" .zero freshShared).run
        done).shared.scene.files twoRuns.directory =
      twoRuns.workflow.cache.keyFor freshShared.scene.files twoRuns.directory := by
    decide +kernel
  have hpacks : alternatingMoves.inits.all fun done => done.getLast?.all fun move =>
      ((start twoRuns "push" .zero freshShared).run done.dropLast).packs move := by
    decide +kernel
  obtain ⟨report, hreport⟩ := Option.isSome_iff_exists.mp hsome
  refine ⟨report, hreport, store_gains_first_write CacheStore.valid_inMemory rfl ?_ ?_ ?_ hreport⟩
  · intro position reply hm
    rw [reply_of_mem_alternatingMoves hm]
    rfl
  · intro done move hdone
    simpa using List.all_eq_true.mp hpacks _ ((List.mem_inits _ _).mpr hdone)
  · intro done hdone
    exact of_decide_eq_true (List.all_eq_true.mp hmanifest done ((List.mem_inits _ _).mpr hdone))

end Execution

end BuildMatrix
