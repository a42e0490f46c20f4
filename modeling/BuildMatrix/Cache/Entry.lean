import BuildMatrix.Run.Report
import BuildMatrix.Text.Split
import BuildMatrix.Text.Utf8

/-!
# Cache entries

What a cache store holds: payloads under keys. The first payload that is written under a key stays.
-/

namespace BuildMatrix

/-- A stored payload. -/
structure CacheEntry where
  key : String
  payload : Bytes
  createdAt : Instant
deriving DecidableEq, Repr

namespace CacheEntry

def summary (entry : CacheEntry) : CacheSummary :=
  ⟨entry.key, UInt64.ofNat entry.payload.length, entry.createdAt⟩

/-- Whether the key of the entry starts with a text. -/
def keyStartsWith (entry : CacheEntry) (stem : String) : Bool :=
  Text.startsWith stem.toList entry.key.toList

end CacheEntry

end BuildMatrix
