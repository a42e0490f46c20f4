import BuildMatrix.Text.Blank
import BuildMatrix.Text.Split

/-!
# Test filters

A test filter deselects the tests that carry one of its tags. It is written as a marker expression,
`not a and not b`. Reading accepts exactly the conjunctions of negated tags; there is no way to
select tests by an expression.
-/

namespace BuildMatrix

/-- Why tags or a marker expression do not make a filter. -/
inductive TestFilterError where
  | invalidTag (tag : String)
  | unsupported (expression : String)
deriving DecidableEq, Repr

/-- The text shown to the user. -/
def TestFilterError.message : TestFilterError → String
  | .invalidTag tag => s!"invalid test tag '{tag}': tags must be identifiers"
  | .unsupported expression =>
    s!"unsupported marker expression '{expression}': "
      ++ "only `not <tag>` terms joined by `and` are supported"

/-- Deselects the tests that carry one of the tags. -/
structure TestFilter where
  excluded : List String
deriving DecidableEq, Repr

namespace TestFilter

def everything : TestFilter := ⟨[]⟩

/-- A letter or an underscore, the first character of an identifier. -/
def isTagHead (c : Char) : Bool := c.isAlpha || c == '_'

/-- A letter, a digit or an underscore. -/
def isTagChar (c : Char) : Bool := c.isAlphanum || c == '_'

/-- Whether a text is an identifier in ASCII. -/
def isTag : List Char → Bool
  | [] => false
  | c :: s => isTagHead c && s.all isTagChar

/-- Adds a tag at the end unless it is there. -/
def insert (tags : List String) (tag : String) : List String :=
  if tags.contains tag then tags else tags ++ [tag]

/-- Adds tags one after the other; the first that is no identifier is an error. -/
def insertAll (tags : List String) : List String → Except TestFilterError (List String)
  | [] => .ok tags
  | tag :: rest =>
    if isTag tag.toList then insertAll (insert tags tag) rest else .error (.invalidTag tag)

/-- The filter that deselects the given tags, each kept where it comes first. -/
def excluding (tags : List String) : Except TestFilterError TestFilter :=
  (insertAll [] tags).map TestFilter.mk

/-- The tag of a term `not <tag>`, blank characters around it removed. -/
def negatedTag? (term : List Char) : Option (List Char) :=
  (Text.after? "not ".toList (Text.trim term)).map Text.trim

/-- Reads a marker expression. A blank one selects every test. -/
def parse (expression : String) : Except TestFilterError TestFilter :=
  let text := Text.trim expression.toList
  if text.isEmpty then .ok everything
  else
    let refused := TestFilterError.unsupported (String.ofList text)
    match (Text.splitOn " and ".toList text).mapM negatedTag? with
    | none => .error refused
    | some tags =>
      match excluding (tags.map String.ofList) with
      | .ok filter => .ok filter
      | .error _ => .error refused

/-- The filter as a marker expression; none if it selects every test. -/
def expression? (filter : TestFilter) : Option String :=
  if filter.excluded.isEmpty then none
  else some (Text.joinWith " and " (filter.excluded.map fun tag => "not " ++ tag))

def selects (filter : TestFilter) (tags : List String) : Bool :=
  !(tags.any fun tag => filter.excluded.contains tag)

end TestFilter

end BuildMatrix
