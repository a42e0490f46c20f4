import BuildMatrix.Cache.Archive
import BuildMatrix.Cache.Key
import BuildMatrix.Cache.Store

/-!
# Restoring and saving

A cache is looked up by its exact key first and by the starts of other keys after that. A look-up
that fails counts as one that finds nothing. What is found is restored; after a run that succeeded
the cache is saved, unless it was found under its exact key.
-/

namespace BuildMatrix

abbrev Lookup := Except StoreError (Option CacheEntry)

def Lookup.found? : Lookup → Option CacheEntry
  | .ok entry => entry
  | .error _ => none

/-- What a cache look-up gives. -/
structure Resolution where
  status : CacheStatus
  /-- Empty on a miss. -/
  payload : Bytes
deriving DecidableEq, Repr

namespace Resolution

/-- Nothing was found. -/
def miss : Resolution := ⟨.miss, []⟩

/-- The result of look-ups of the exact key and of the starts of others, in this order. -/
def ofLookups (exact : Lookup) (others : List Lookup) : Resolution :=
  match exact.found? with
  | some entry => ⟨.hit, entry.payload⟩
  | none =>
    match others.findSome? Lookup.found? with
    | some entry => ⟨.partialHit entry.key, entry.payload⟩
    | none => miss

end Resolution

namespace CacheStore

/-- Looks up a key and, in order, the starts of keys that may stand in. -/
def resolve (store : CacheStore) (key : CacheKey) (stems : List String) : Resolution :=
  .ofLookups (store.get key.render) (stems.map store.newest)

/-- Saves a directory under a key, unless it was restored from that key. Nothing is saved if it
cannot be packed. -/
def save (store : CacheStore) (files : FileSystem) (key : CacheKey) (restored : CacheStatus)
    (directory : String) (now : Instant) : CacheStore × Option PutOutcome :=
  match restored with
  | .hit => (store, none)
  | _ =>
    match Archive.pack files directory with
    | .error _ => (store, none)
    | .ok payload =>
      match store.put ⟨key.render, payload, now⟩ with
      | .ok (store, outcome) => (store, some outcome)
      | .error _ => (store, none)

end CacheStore

/-- Restores what was found below a directory. What cannot be restored completely is a miss. -/
def Resolution.restore (resolution : Resolution) (files : FileSystem) (directory : String) :
    FileSystem × CacheStatus :=
  match Archive.restore files directory resolution.payload with
  | (files, .ok _) => (files, resolution.status)
  | (files, .error _) => (files, .miss)

/-- Looks up a key and restores what was found below a directory. -/
def CacheStore.restore (store : CacheStore) (files : FileSystem) (key : CacheKey)
    (stems : List String) (directory : String) : FileSystem × CacheStatus :=
  (store.resolve key stems).restore files directory

end BuildMatrix
