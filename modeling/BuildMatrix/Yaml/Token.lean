import BuildMatrix.Text.Utf8

/-!
# YAML tokens

The tokens of a text. Tokens that no characters stand for mark where block collections start and
end, and where a key starts that no indicator announces.
-/

namespace BuildMatrix.Yaml

/-- How a scalar is written. -/
inductive Style where
  | plain
  | quoted
  | literal
  | folded
deriving DecidableEq, Repr

/-- A tag as it is written: a handle, and what follows it with escapes resolved to bytes. -/
structure TagName where
  handle : String
  suffix : Bytes
deriving DecidableEq, Repr

inductive Token where
  | version (major minor : Nat)
  | tagHandle (handle : String) (meaning : Bytes)
  | documentStart
  | documentEnd
  | blockSequenceStart
  | blockMappingStart
  | blockEnd
  | flowSequenceStart
  | flowSequenceEnd
  | flowMappingStart
  | flowMappingEnd
  | blockEntry
  | flowEntry
  | key
  | value
  | alias (name : String)
  | anchor (name : String)
  | tag (name : TagName)
  | scalar (text : String) (style : Style)
deriving DecidableEq, Repr

end BuildMatrix.Yaml
