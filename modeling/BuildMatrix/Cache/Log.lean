import BuildMatrix.Cache.Entry

/-!
# Write-once logs

A write-once log keeps entries in the order in which they are written and takes only the first
entry of each key. It is the store of a single execution.
-/

namespace BuildMatrix

/-- Entries in the order in which they were written. -/
structure EntryLog where
  entries : List CacheEntry
deriving DecidableEq, Repr

namespace EntryLog

def empty : EntryLog := ⟨[]⟩

def get? (log : EntryLog) (key : String) : Option CacheEntry :=
  log.entries.find? fun entry => entry.key == key

/-- The last written entry whose key starts with a text. -/
def newest? (log : EntryLog) (stem : String) : Option CacheEntry :=
  log.entries.reverse.find? fun entry => entry.keyStartsWith stem

/-- Writes an entry, unless there is one of its key. -/
def put (log : EntryLog) (entry : CacheEntry) : EntryLog × PutOutcome :=
  if log.entries.any fun e => e.key == entry.key then (log, .alreadyExists)
  else (⟨log.entries ++ [entry]⟩, .stored)

/-- The entries as they are listed, the newest first. -/
def list (log : EntryLog) : List CacheSummary := log.entries.reverse.map CacheEntry.summary

end EntryLog

end BuildMatrix
