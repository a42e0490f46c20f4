import BuildMatrix.Cache.Log
import BuildMatrix.Cache.Table

/-!
# Cache stores

A cache store is a log or a table. Some of its operations may be out of order; these give an error
and change nothing.
-/

namespace BuildMatrix

/-- The operations of a store that may be out of order. -/
inductive StoreMethod where
  | get
  | newest
  | put
deriving DecidableEq, Repr

def StoreMethod.name : StoreMethod → String
  | get => "get"
  | newest => "get_by_prefix"
  | put => "put"

/-- The failure of an operation. -/
structure StoreError where
  method : StoreMethod
deriving DecidableEq, Repr

/-- The texts shown to the user, the cause last. -/
def StoreError.chain (e : StoreError) : List String := [s!"{e.method.name} failed"]

inductive StoreContents where
  | log (log : EntryLog)
  | table (table : EntryTable)
deriving DecidableEq, Repr

/-- A store, and the operations that are out of order. -/
structure CacheStore where
  contents : StoreContents
  failing : List StoreMethod
deriving DecidableEq, Repr

namespace CacheStore

def inMemory : CacheStore := ⟨.log .empty, []⟩

def onTable (table : EntryTable) : CacheStore := ⟨.table table, []⟩

/-- The table that the store is on, if it is on one. -/
def table? (store : CacheStore) : Option EntryTable :=
  match store.contents with
  | .table table => some table
  | .log _ => none

/-- The result of an operation that is not out of order. -/
def perform {α : Type} (store : CacheStore) (method : StoreMethod) (result : α) :
    Except StoreError α :=
  if store.failing.contains method then .error ⟨method⟩ else .ok result

def get (store : CacheStore) (key : String) : Except StoreError (Option CacheEntry) :=
  store.perform .get <| match store.contents with
    | .log log => log.get? key
    | .table table => table.get? key

def newest (store : CacheStore) (stem : String) : Except StoreError (Option CacheEntry) :=
  store.perform .newest <| match store.contents with
    | .log log => log.newest? stem
    | .table table => table.newest? stem

/-- Writes an entry, unless there is one of its key. -/
def put (store : CacheStore) (entry : CacheEntry) : Except StoreError (CacheStore × PutOutcome) :=
  store.perform .put <| match store.contents with
    | .log log =>
      let (log, outcome) := log.put entry
      ({ store with contents := .log log }, outcome)
    | .table table =>
      let (table, outcome) := table.put entry
      ({ store with contents := .table table }, outcome)

/-- The entries as they are listed, the newest first. -/
def list (store : CacheStore) : List CacheSummary :=
  match store.contents with
  | .log log => log.list
  | .table table => table.list

end CacheStore

end BuildMatrix
