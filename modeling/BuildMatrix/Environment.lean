/-!
# Environment variables

An environment gives values to names. Its entries are kept in ascending order of their names, each
name once, so two environments with the same values are equal.
-/

namespace BuildMatrix

/-- Variables and their values, in ascending order of the names. -/
structure Environment where
  entries : List (String × String)
deriving DecidableEq, Repr

namespace Environment

def empty : Environment := ⟨[]⟩

/-- The value of a variable. -/
def get? (env : Environment) (name : String) : Option String :=
  (env.entries.find? fun e => e.1 == name).map (·.2)

def insertEntry (name value : String) : List (String × String) → List (String × String)
  | [] => [(name, value)]
  | (n, v) :: rest =>
    if name = n then (name, value) :: rest
    else if name < n then (name, value) :: (n, v) :: rest
    else (n, v) :: insertEntry name value rest

/-- Sets a variable; an old value is lost. -/
def set (env : Environment) (name value : String) : Environment :=
  ⟨insertEntry name value env.entries⟩

/-- Sets variables one after the other. -/
def setAll (env : Environment) (entries : List (String × String)) : Environment :=
  entries.foldl (fun env e => env.set e.1 e.2) env

/-- The environment of a list of variables; of two values for one name the last counts. -/
def ofList (entries : List (String × String)) : Environment := empty.setAll entries

end Environment

end BuildMatrix
