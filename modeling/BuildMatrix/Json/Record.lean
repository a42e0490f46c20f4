import BuildMatrix.Json.Value

/-!
# Records and variants in JSON

A record is written as an object with its fields in order. It is read from an object, where unknown
members are ignored, or from an array of exactly its fields. A variant is written as its name, or
as an object with the name and the payload; one without payload may be read with null.
-/

namespace BuildMatrix.Json

def text? : Json → Option String
  | string s => some s
  | _ => none

/-- The integer of a value that is one and has 32 bits with sign. -/
def int32? : Json → Option Int32
  | integer n => if -2147483648 ≤ n && n ≤ 2147483647 then some (Int32.ofInt n) else none
  | _ => none

/-- The integer of a value that is one and has 64 bits without sign. -/
def uint64? : Json → Option UInt64
  | integer n =>
    if 0 ≤ n && n ≤ 18446744073709551615 then some (UInt64.ofNat n.toNat) else none
  | _ => none

/-- The items of an array, if each of them can be read. -/
def list? {α : Type} (item? : Json → Option α) : Json → Option (List α)
  | array items => items.mapM item?
  | _ => none

def textPair? : Json → Option (String × String)
  | array [string a, string b] => some (a, b)
  | _ => none

/-- The fields of a record; a field that is absent has no value. -/
def fields? (names : List String) : Json → Option (List (Option Json))
  | object members => some (names.map fun name => (object members).member? name)
  | array items => if items.length = names.length then some (items.map some) else none
  | _ => none

/-- The fields of a record that must be an object. -/
def members? (names : List String) : Json → Option (List (Option Json))
  | object members => fields? names (object members)
  | _ => none

def required? {α : Type} (read? : Json → Option α) (field : Option Json) : Option α :=
  field.bind read?

/-- A field that may be absent or null. -/
def optional? {α : Type} (read? : Json → Option α) : Option Json → Option (Option α)
  | none | some null => some none
  | some value => (read? value).map some

/-- The name of a variant, and its payload if there is one. -/
def variant? : Json → Option (String × Option Json)
  | string name => some (name, none)
  | object [(name, payload)] => some (name, some payload)
  | _ => none

/-- The value of a variant without payload. -/
def unit? {α : Type} (value : α) : Option Json → Option α
  | none | some null => some value
  | _ => none

/--
The tag of a record that carries its kind in the member `tagName`, and the rest of the record. In an
array the tag comes first.
-/
def tagged? (tagName : String) : Json → Option (String × Json)
  | object members => do
    let tag ← (← (object members).member? tagName).text?
    some (tag, object (members.filter fun m => m.1 != tagName))
  | array (string tag :: items) => some (tag, array items)
  | _ => none

/-- An optional value, null if there is none. -/
def ofOption {α : Type} (write : α → Json) : Option α → Json
  | none => null
  | some value => write value

def ofTextPair (pair : String × String) : Json := array [string pair.1, string pair.2]

def ofVariant (name : String) (payload : Json) : Json := object [(name, payload)]

end BuildMatrix.Json
