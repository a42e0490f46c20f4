import BuildMatrix.Decimal.Binary64

/-!
# JSON values

Reports, steps and commands are exchanged as JSON values. The members of an object keep the order
in which they are written.
-/

namespace BuildMatrix

/-- A JSON value. Integers are exact; other numbers are binary floating-point numbers. -/
inductive Json where
  | null
  | bool (value : Bool)
  | integer (value : Int)
  | float (value : Decimal.Binary64)
  | string (value : String)
  | array (items : List Json)
  | object (members : List (String × Json))
deriving Repr

namespace Json

/-- The first member of an object with the given name. -/
def member? (name : String) : Json → Option Json
  | object members => (members.find? fun m => m.1 == name).map (·.2)
  | _ => none

/-- A text or null. -/
def ofString? : Option String → Json
  | none => null
  | some s => string s

def ofStrings (texts : List String) : Json := array (texts.map string)

end Json

end BuildMatrix
