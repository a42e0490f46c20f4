import BuildMatrix.Yaml.Document
import BuildMatrix.Yaml.Scalar

/-!
# YAML values

The value of a node with aliases followed. Mappings keep the order in which they are written, and
no two keys of a mapping are the same. Collections may be nested up to a limit, aliases counted,
and the number of aliases that are followed is bounded by the size of the document.
-/

namespace BuildMatrix.Yaml

inductive Value where
  | null
  | bool (value : Bool)
  | integer (value : Int)
  | float (value : Decimal.Binary64)
  | string (value : String)
  | sequence (items : List Value)
  | mapping (pairs : List (Value × Value))
  | tagged (tag : String) (value : Value)
deriving Repr

namespace Value

mutual

/-- Whether two values are the same; the order of a mapping does not count. -/
def same : Value → Value → Bool
  | null, null => true
  | bool a, bool b => a == b
  | integer a, integer b => a == b
  | float a, float b => a.same b
  | string a, string b => a == b
  | sequence a, sequence b => sameItems a b
  | mapping a, mapping b => a.length == b.length && samePairs a b
  | tagged t a, tagged u b => t == u && same a b
  | _, _ => false

def sameItems : List Value → List Value → Bool
  | [], [] => true
  | a :: as, b :: bs => same a b && sameItems as bs
  | _, _ => false

/-- Whether each pair is the same as one of the others. -/
def samePairs : List (Value × Value) → List (Value × Value) → Bool
  | [], _ => true
  | (key, value) :: rest, others =>
    others.any (fun other => same key other.1 && same value other.2) && samePairs rest others

end

def untagged : Value → Value
  | tagged _ value => untagged value
  | value => value

/-- The text of a value that is a text, whatever its tags. -/
def text? (value : Value) : Option String :=
  match value.untagged with
  | string s => some s
  | _ => none

end Value

def nestingLimit : Nat := 128

/-- How often an alias may be followed, for each event of the document. -/
def aliasLimit : Nat := 100

/-- Reads from a document; the state counts the aliases that may still be followed. -/
abbrev Reader := ReaderT Document (StateT Nat Option)

namespace Reader

def refuse {α : Type} : Reader α := failure

/-- A result that may be missing. -/
def require {α : Type} : Option α → Reader α
  | some value => pure value
  | none => failure

def run? {α : Type} (document : Document) (reader : Reader α) : Option α :=
  ((ReaderT.run reader document).run (aliasLimit * document.events.length)).map (·.1)

def resolve (node : Node) : Reader Node := do
  match node with
  | .alias number =>
    match ← get with
    | 0 => refuse
    | left + 1 =>
      set left
      require ((← read).anchored? number)
  | node => pure node

/-- The name of a tag of the document's own, which starts with an exclamation mark. -/
def ownTag? (tag : Option Bytes) : Option String :=
  match tag with
  | some (0x21 :: rest) => Utf8.decode? (if rest.isEmpty then [0x21] else rest)
  | _ => none

def typeTag (name : String) : Bytes := Utf8.encode ("tag:yaml.org,2002:" ++ name)

/-- An integer, if it has 64 bits; one that has no more than 128 bits is refused. -/
def integerValue (n : Int) : Option (Option Value) :=
  if -(Nat.pow 2 63 : Int) ≤ n && n < Nat.pow 2 64 then some (some (.integer n))
  else if -(Nat.pow 2 127 : Int) ≤ n && n < Nat.pow 2 128 then none
  else some none

def plainValue? (text : String) : Option Value := do
  if text.isEmpty || Scalar.isNull text then some .null
  else match Scalar.bool? text with
    | some b => some (.bool b)
    | none =>
      let chars := text.toList
      let integer ← match Scalar.integer? chars with
        | some n => integerValue n
        | none => some none
      match integer with
      | some value => some value
      | none =>
        if Scalar.isPaddedDigits chars then some (.string text)
        else match Scalar.float? chars with
          | some x => some (.float x)
          | none => some (.string text)

/-- The value of a scalar whose tag, if it has one, is not of the document's own. -/
def scalarValue? (tag : Option Bytes) (text : String) (style : Style) : Option Value :=
  match tag with
  | none => if style = .plain then plainValue? text else some (.string text)
  | some tag =>
    if tag = typeTag "bool" then (Scalar.bool? text).map .bool
    else if tag = typeTag "int" then do
      (← integerValue (← Scalar.integer? text.toList))
    else if tag = typeTag "float" then (Scalar.float? text.toList).map .float
    else if tag = typeTag "null" then if Scalar.isNull text then some .null else none
    else if tag.head? = some 0x21 && style = .plain then plainValue? text
    else some (.string text)

/-- A value with a tag of the document's own, if there is one. -/
def withTag (tag : Option String) (value : Value) : Value :=
  match tag with
  | some tag => .tagged tag value
  | none => value

/-- The pairs with a key and value added; the key must be new. -/
def addPair (pairs : List (Value × Value)) (key value : Value) : Reader (List (Value × Value)) :=
  if pairs.any fun pair => pair.1.same key then refuse else pure (pairs ++ [(key, value)])

/-- The value of a node; collections may be nested `depth` times. -/
def value : (depth : Nat) → Node → Reader Value
  | depth, node => do
    match ← resolve node with
    | .scalar tag text style =>
      match ownTag? tag with
      | some name => pure (.tagged name (← require (scalarValue? none text style)))
      | none => require (scalarValue? tag text style)
    | .sequence tag items =>
      match depth with
      | 0 => refuse
      | depth + 1 =>
        let items ← items.mapM (value depth)
        pure (withTag (ownTag? tag) (.sequence items))
    | .mapping tag pairs =>
      match depth with
      | 0 => refuse
      | depth + 1 =>
        let pairs ← pairs.foldlM (fun done (k, v) => do
          let key ← value depth k
          addPair done key (← value depth v)) []
        pure (withTag (ownTag? tag) (.mapping pairs))
    | .alias _ => refuse

/-- Whether a node is a plain scalar without any text, which stands for an empty collection. -/
def isBlankNode : Node → Bool
  | .scalar _ text .plain => text.isEmpty
  | _ => false

def items (node : Node) : Reader (List Node) := do
  match ← resolve node with
  | .sequence _ items => pure items
  | node => if isBlankNode node then pure [] else refuse

def pairs (node : Node) : Reader (List (Node × Node)) := do
  match ← resolve node with
  | .mapping _ pairs => pure pairs
  | node => if isBlankNode node then pure [] else refuse

def text (node : Node) : Reader String := do
  match ← resolve node with
  | .scalar _ text _ => pure text
  | _ => refuse

/-- The text of a plain scalar, or of a literal one with the tag of a type. -/
def typedText (type : String) (node : Node) : Reader String := do
  match ← resolve node with
  | .scalar _ text .plain => pure text
  | .scalar tag text .literal => if tag = some (typeTag type) then pure text else refuse
  | _ => refuse

/-- A truth value. -/
def bool (node : Node) : Reader Bool := do require (Scalar.bool? (← typedText "bool" node))

/-- An integer of 64 bits without sign. -/
def uint64 (node : Node) : Reader UInt64 := do
  let n ← require (Scalar.unsigned? (← typedText "int" node).toList)
  if n < Nat.pow 2 64 then pure (UInt64.ofNat n) else refuse

/-- The members of a record that have one of the given names, which must not be repeated. -/
def members (names : List String) (node : Node) : Reader (List (String × Node)) := do
  (← pairs node).foldlM (fun done (key, value) => do
    let name ← text key
    if !names.contains name then pure done
    else if done.any fun m => m.1 = name then refuse
    else pure (done ++ [(name, value)])) []

/-- A member of a record, or a default. -/
def member {α : Type} (members : List (String × Node)) (name : String) (default : α)
    (read : Node → Reader α) : Reader α :=
  match members.find? fun m => m.1 = name with
  | some (_, node) => read node
  | none => pure default

end Reader

end BuildMatrix.Yaml
