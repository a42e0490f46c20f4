import BuildMatrix.Proofs.Cache.Precedence
import BuildMatrix.Proofs.Execution.Store

/-!
# The look-ups of a run

A run looks up its cache in turns, one for each call of the store. Taken alone, these turns find
what the store resolves the key to when the same calls fail, and they change nothing else.
-/

namespace BuildMatrix.Execution

def turnsOf (position : Nat) (replies : Nat → Reply) (count : Nat) : List Move :=
  (List.range count).map fun n => .turn position (replies n)

def withStage (e : Execution) (position : Nat) (task : Task) (stage : Stage) : Execution :=
  { e with tasks := e.tasks.set position { task with stage } }

/-- What is found by the starts of other keys if the host lets some calls fail. -/
def foundByStems (store : CacheStore) (replies : Nat → Reply) (stems : List String) : Resolution :=
  match (stems.mapIdx fun n stem =>
    Lookup.orFails (replies n).storeFails .newest (store.newest stem)).findSome? Lookup.found? with
  | some entry => ⟨.partialHit entry.key, entry.payload⟩
  | none => .miss

section
variable {e : Execution} {position : Nat} {task : Task} {setup : Setup} {key : CacheKey}

theorem turnsOf_succ (position : Nat) (replies : Nat → Reply) (count : Nat) :
    turnsOf position replies (count + 1) =
      .turn position (replies 0) :: turnsOf position (fun n => replies (n + 1)) count := by
  rw [turnsOf, List.range_succ_eq_map, List.map_cons, List.map_map]
  rfl

theorem move_turn_quiet (ht : e.tasks[position]? = some task) {reply : Reply} {stage : Stage}
    (hturn : task.turn e.job reply e.shared = ⟨stage, e.shared, []⟩) :
    e.move (.turn position reply) = e.withStage position task stage := by
  rw [Execution.move, turn_eq ht, hturn, Task.after, hturn]
  simp [withStage]

theorem tasks_withStage (ht : e.tasks[position]? = some task) (stage : Stage) :
    (e.withStage position task stage).tasks[position]? = some { task with stage } := by
  have hlt := (List.getElem?_eq_some_iff.mp ht).choose
  simp [withStage, hlt]

theorem withStage_withStage (stage stage' : Stage) :
    (e.withStage position task stage).withStage position { task with stage } stage' =
      e.withStage position task stage' := by
  simp [withStage]

theorem foundByStems_cons (store : CacheStore) (replies : Nat → Reply) (stem : String)
    (stems : List String) :
    foundByStems store replies (stem :: stems) =
      match Lookup.found? (Lookup.orFails (replies 0).storeFails .newest (store.newest stem)) with
      | some entry => ⟨.partialHit entry.key, entry.payload⟩
      | none => foundByStems store (fun n => replies (n + 1)) stems := by
  rw [foundByStems, List.mapIdx_cons, List.findSome?_cons]
  cases Lookup.found? (Lookup.orFails (replies 0).storeFails .newest (store.newest stem)) <;> rfl

theorem storeAnswer_eq (reply : Reply) (method : StoreMethod) (lookup : Lookup) :
    Task.storeAnswer reply method lookup = Lookup.orFails reply.storeFails method lookup := rfl

theorem turn_exact (e : Execution) (hs : task.stage = .lookingUp setup key none) (reply : Reply) :
    task.turn e.job reply e.shared =
      ⟨match Lookup.found?
          (Lookup.orFails reply.storeFails .get (e.shared.store.get key.render)) with
        | some entry => .restoring setup key ⟨.hit, entry.payload⟩
        | none => .lookingUp setup key (some (e.job.workflow.cache.stemsFor key)),
        e.shared, []⟩ := by
  simp only [Task.turn, hs, storeAnswer_eq]
  cases Lookup.orFails reply.storeFails .get (e.shared.store.get key.render) with
  | error _ => rfl
  | ok answer => cases answer <;> rfl

theorem turn_stem (e : Execution) {stem : String} {stems : List String}
    (hs : task.stage = .lookingUp setup key (some (stem :: stems))) (reply : Reply) :
    task.turn e.job reply e.shared =
      ⟨match Lookup.found?
          (Lookup.orFails reply.storeFails .newest (e.shared.store.newest stem)) with
        | some entry => .restoring setup key ⟨.partialHit entry.key, entry.payload⟩
        | none => .lookingUp setup key (some stems),
        e.shared, []⟩ := by
  simp only [Task.turn, hs, storeAnswer_eq]
  cases Lookup.orFails reply.storeFails .newest (e.shared.store.newest stem) with
  | error _ => rfl
  | ok answer => cases answer <;> rfl

/-- The starts of other keys are looked up one after the other, until one is found. -/
theorem run_lookingUp_stems (stems : List String) (replies : Nat → Reply)
    (ht : e.tasks[position]? = some task)
    (hs : task.stage = .lookingUp setup key (some stems)) :
    ∃ count ≤ stems.length + 1, e.run (turnsOf position replies count) =
      e.withStage position task
        (.restoring setup key (foundByStems e.shared.store replies stems)) := by
  induction stems generalizing e task replies with
  | nil =>
    have hmissed : task.turn e.job (replies 0) e.shared =
        ⟨.restoring setup key .miss, e.shared, []⟩ := by simp only [Task.turn, hs]
    refine ⟨1, Nat.le_refl 1, ?_⟩
    rw [turnsOf_succ, run_cons, move_turn_quiet ht hmissed]
    rfl
  | cons stem stems ih =>
    cases hfirst : Lookup.found?
        (Lookup.orFails (replies 0).storeFails .newest (e.shared.store.newest stem)) with
    | some entry =>
      refine ⟨1, Nat.le_add_left 1 _, ?_⟩
      rw [turnsOf_succ, run_cons, move_turn_quiet ht (turn_stem e hs (replies 0)),
        foundByStems_cons, hfirst]
      rfl
    | none =>
      -- The turn leaves the store as it is, and the replies after it are those to the other starts.
      have hmoved := move_turn_quiet ht (turn_stem e hs (replies 0))
      rw [hfirst] at hmoved
      obtain ⟨count, hcount, hrun⟩ := ih (e := e.withStage position task
        (.lookingUp setup key (some stems))) (fun n => replies (n + 1)) (tasks_withStage ht _) rfl
      refine ⟨count + 1, Nat.succ_le_succ hcount, ?_⟩
      rw [turnsOf_succ, run_cons, hmoved, hrun, withStage_withStage, foundByStems_cons, hfirst]
      rfl

/-- The look-ups of a run find what the store resolves its key to when the same calls fail. -/
theorem run_lookingUp (replies : Nat → Reply) (ht : e.tasks[position]? = some task)
    (hs : task.stage = .lookingUp setup key none) :
    ∃ count ≤ (e.job.workflow.cache.stemsFor key).length + 2,
      e.run (turnsOf position replies count) =
        e.withStage position task (.restoring setup key
          (e.shared.store.resolveDespite (fun n => (replies n).storeFails) key
            (e.job.workflow.cache.stemsFor key))) := by
  have hmoved := move_turn_quiet ht (turn_exact e hs (replies 0))
  unfold CacheStore.resolveDespite Resolution.ofLookups
  cases hexact : Lookup.found?
      (Lookup.orFails (replies 0).storeFails .get (e.shared.store.get key.render)) with
  | some entry =>
    rw [hexact] at hmoved
    refine ⟨1, Nat.le_add_left 1 _, ?_⟩
    rw [turnsOf_succ, run_cons, hmoved]
    rfl
  | none =>
    rw [hexact] at hmoved
    obtain ⟨count, hcount, hrun⟩ := run_lookingUp_stems (e := e.withStage position task
      (.lookingUp setup key (some (e.job.workflow.cache.stemsFor key))))
      (e.job.workflow.cache.stemsFor key) (fun n => replies (n + 1)) (tasks_withStage ht _) rfl
    refine ⟨count + 1, Nat.succ_le_succ hcount, ?_⟩
    rw [turnsOf_succ, run_cons, hmoved, hrun, withStage_withStage]
    rfl

/-- Whatever calls of the store fail, a key is resolved to what is to be found for it and to nothing
else, and the look-ups of a run that starts to look up its key find just this. They end, with
everything but the stage of the run as it was. -/
theorem looks_up_by_precedence {store : CacheStore} (hstore : store.WellFormed) (key : CacheKey) :
    (∀ fails stems resolution, store.resolveDespite fails key stems = resolution ↔
      store.Prefers fails key stems resolution) ∧
    (∀ stems, store.resolve key stems = store.resolveDespite (fun _ => false) key stems) ∧
    ∀ (e : Execution) (position : Nat) (task : Task) (setup : Setup) (replies : Nat → Reply),
      e.shared.store = store → e.tasks[position]? = some task →
      task.stage = .lookingUp setup key none →
      ∃ count ≤ (e.job.workflow.cache.stemsFor key).length + 2,
        e.run (turnsOf position replies count) =
          e.withStage position task (.restoring setup key
            (store.resolveDespite (fun n => (replies n).storeFails) key
              (e.job.workflow.cache.stemsFor key))) := by
  refine ⟨fun fails stems resolution => ?_, fun stems => ?_, ?_⟩
  · exact CacheStore.resolveDespite_eq_iff hstore fails key stems resolution
  · exact (CacheStore.resolveDespite_false store key stems).symm
  · intro e position task setup replies he ht hs
    rw [← he]
    exact run_lookingUp replies ht hs

end

def threeCaches : CacheStore :=
  ⟨.log ⟨[⟨"Linux-poetry-a", [97], .epoch⟩, ⟨"Linux-pip-b", [98], .epoch⟩,
    ⟨"Linux-pip-c", [99], .epoch⟩]⟩, []⟩

theorem wellFormed_threeCaches : threeCaches.WellFormed where
  valid := trivial
  numbered := trivial
  distinct := by decide

/-- Two starts of keys are looked up, and the store fails when it is asked for the first. -/
def failingOnce (n : Nat) : Reply := { Reply.none with storeFails := n == 1 }

def lookingUpThree : Task :=
  ⟨⟨[("py", "3.8")]⟩, .epoch,
    .lookingUp ⟨⟨"/tmp/run"⟩, ⟨"3.8", "python3.8"⟩⟩ ⟨"Linux-pip", "d"⟩ none⟩

def executionOfThree : Execution :=
  { start { twoRuns with workflow := { twoRuns.workflow with
      cache := ⟨"pins", "/cache", "pip", ["Linux-poetry-", "Linux-"]⟩ } } "push" .zero
      { freshShared with store := threeCaches } with
    tasks := [lookingUpThree] }

/-- The start of the older cache goes before, but the store fails. -/
theorem looks_up_by_precedence_three : threeCaches.WellFormed ∧
    threeCaches.Prefers (fun n => (failingOnce n).storeFails) ⟨"Linux-pip", "d"⟩
      ["Linux-poetry-", "Linux-"] ⟨.partialHit "Linux-pip-c", [99]⟩ ∧
    ∃ count ≤ 4, executionOfThree.run (turnsOf 0 failingOnce count) =
      executionOfThree.withStage 0 lookingUpThree (.restoring ⟨⟨"/tmp/run"⟩, ⟨"3.8", "python3.8"⟩⟩
        ⟨"Linux-pip", "d"⟩ ⟨.partialHit "Linux-pip-c", [99]⟩) := by
  have h := looks_up_by_precedence wellFormed_threeCaches ⟨"Linux-pip", "d"⟩
  have hfound : threeCaches.resolveDespite (fun n => (failingOnce n).storeFails)
      ⟨"Linux-pip", "d"⟩ ["Linux-poetry-", "Linux-"] = ⟨.partialHit "Linux-pip-c", [99]⟩ := by
    decide
  refine ⟨wellFormed_threeCaches, (h.1 _ _ _).mp hfound, ?_⟩
  rw [← hfound]
  exact h.2.2 executionOfThree 0 lookingUpThree _ failingOnce rfl rfl rfl

end BuildMatrix.Execution
