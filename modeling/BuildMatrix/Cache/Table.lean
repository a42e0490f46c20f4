import BuildMatrix.Cache.Entry

/-!
# Tables of entries

A table holds entries as rows with ascending numbers, and no two rows with one key. Rows are
selected by conditions on their columns; of several the one with the greatest number is the newest.
It is the store that outlives an execution.

Texts may hold the NUL character, but functions on texts look only at what is before the first one.
-/

namespace BuildMatrix

structure EntryRow where
  number : Nat
  key : String
  payload : Bytes
  createdAt : Instant
deriving DecidableEq, Repr

def EntryRow.entry (row : EntryRow) : CacheEntry := ⟨row.key, row.payload, row.createdAt⟩

/-- Rows in no particular order. -/
structure EntryTable where
  rows : List EntryRow
  /-- The greatest number that was ever given to a row. -/
  lastNumber : Nat
deriving DecidableEq, Repr

namespace EntryTable

def empty : EntryTable := ⟨[], 0⟩

def visible (text : String) : List Char := text.toList.takeWhile fun c => c.toNat != 0

def textLength (text : String) : Nat := (visible text).length

def textStart (text : String) (count : Nat) : String := String.ofList ((visible text).take count)

def isNewer (a b : EntryRow) : Bool := decide (b.number ≤ a.number)

/-- The rows that fulfil a condition, those with greater numbers first. -/
def select (table : EntryTable) (condition : EntryRow → Bool) : List EntryRow :=
  (table.rows.filter condition).mergeSort isNewer

def get? (table : EntryTable) (key : String) : Option CacheEntry :=
  (table.select fun row => row.key == key).head?.map EntryRow.entry

def newest? (table : EntryTable) (stem : String) : Option CacheEntry :=
  (table.select fun row => textStart row.key (textLength stem) == stem).head?.map EntryRow.entry

/-- Adds a row for an entry, unless there is one of its key. -/
def put (table : EntryTable) (entry : CacheEntry) : EntryTable × PutOutcome :=
  if table.rows.any fun row => row.key == entry.key then (table, .alreadyExists)
  else
    let number := table.lastNumber + 1
    (⟨⟨number, entry.key, entry.payload, entry.createdAt⟩ :: table.rows, number⟩, .stored)

/-- The entries as they are listed, the newest first. -/
def list (table : EntryTable) : List CacheSummary :=
  (table.select fun _ => true).map fun row => row.entry.summary

end EntryTable

end BuildMatrix
