import BuildMatrix.Yaml.Lexer

/-!
# YAML events

The events of a document are its scalars, its aliases, and the start and end of its collections, in
the order of the text. Whether a sequence of tokens is well-formed is decided here.
-/

namespace BuildMatrix.Yaml

/-- The anchor and the tag before a node. The tag has its handle resolved. -/
structure Properties where
  anchor : Option String
  tag : Option Bytes
deriving DecidableEq, Repr

inductive Event where
  | alias (name : String)
  | scalar (properties : Properties) (text : String) (style : Style)
  | sequenceStart (properties : Properties)
  | sequenceEnd
  | mappingStart (properties : Properties)
  | mappingEnd
deriving DecidableEq, Repr

namespace Event

/-- Neither anchor nor tag. -/
def noProperties : Properties := ⟨none, none⟩

/-- A node that is not written. -/
def empty (properties : Properties := noProperties) : Event := .scalar properties "" .plain

/-- What is left of the tokens, and the events so far, the last first. -/
structure State where
  tokens : List Token
  events : List Event
  /-- What the tag handles of the document stand for, the first that matches counts. -/
  handles : List (String × Bytes)
deriving Repr

abbrev Step := StateT State Option

/-- The next token; none at the end of the text. -/
def peek : Step (Option Token) := do pure (← get).tokens.head?

def skip : Step Unit := modify fun s => { s with tokens := s.tokens.drop 1 }

def emit (event : Event) : Step Unit := modify fun s => { s with events := event :: s.events }

def refuse {α : Type} : Step α := failure

/-- Passes the next token if it is the given one. -/
def skipIf (token : Token) : Step Bool := do
  if (← peek) = some token then skip; pure true else pure false

def resolveTag (name : TagName) : Step Bytes := do
  if name.handle.isEmpty then pure name.suffix
  else match (← get).handles.find? fun h => h.1 = name.handle with
    | some (_, meaning) => pure (meaning ++ name.suffix)
    | none => refuse

def anchor? : Step (Option String) := do
  match ← peek with
  | some (.anchor name) => skip; pure (some name)
  | _ => pure none

def tag? : Step (Option TagName) := do
  match ← peek with
  | some (.tag name) => skip; pure (some name)
  | _ => pure none

/-- Passes an anchor and a tag in either order. -/
def properties : Step Properties := do
  let early ← anchor?
  let tag ← tag?
  let anchor ← if early.isNone && tag.isSome then anchor? else pure early
  let tag ← match tag with
    | some name => pure (some (← resolveTag name))
    | none => pure none
  pure ⟨anchor, tag⟩

/-- The tag of a single exclamation mark, which a scalar does not keep. -/
def bareTag : Bytes := Utf8.encode "!"

mutual

/--
A node. Block collections are allowed only outside of brackets, and a sequence that is not indented
only as a part of a block mapping.
-/
def node : (fuel : Nat) → (inBlock unindented : Bool) → Step Unit
  | 0, _, _ => refuse
  | fuel + 1, inBlock, unindented => do
    match ← peek with
    | some (.alias name) => skip; emit (.alias name)
    | _ =>
      let properties ← properties
      match ← peek with
      | some (.scalar text style) =>
        skip
        let tag := if properties.tag = some bareTag then none else properties.tag
        emit (.scalar { properties with tag } text style)
      | some .flowSequenceStart =>
        skip; emit (.sequenceStart properties); flowItems fuel true
      | some .flowMappingStart =>
        skip; emit (.mappingStart properties); flowPairs fuel true
      | token =>
        if unindented && token = some .blockEntry then
          emit (.sequenceStart properties); unindentedItems fuel
        else if inBlock && token = some .blockSequenceStart then
          skip; emit (.sequenceStart properties); blockItems fuel
        else if inBlock && token = some .blockMappingStart then
          skip; emit (.mappingStart properties); blockPairs fuel
        else if properties = noProperties then refuse
        else emit (empty properties)

/-- A node, or an empty one if the next token is one of those that end it. -/
def nodeUnless : (fuel : Nat) → (inBlock unindented : Bool) → (ends : List Token) → Step Unit
  | 0, _, _, _ => refuse
  | fuel + 1, inBlock, unindented, ends => do
    let next ← peek
    if next.any ends.contains then emit empty else node fuel inBlock unindented

def blockItems : (fuel : Nat) → Step Unit
  | 0 => refuse
  | fuel + 1 => do
    if ← skipIf .blockEntry then
      nodeUnless fuel true false [.blockEntry, .blockEnd]
      blockItems fuel
    else if ← skipIf .blockEnd then emit .sequenceEnd
    else refuse

/-- The items of a sequence at the column of the mapping around it. -/
def unindentedItems : (fuel : Nat) → Step Unit
  | 0 => refuse
  | fuel + 1 => do
    if ← skipIf .blockEntry then
      nodeUnless fuel true false [.blockEntry, .key, .value, .blockEnd]
      unindentedItems fuel
    else emit .sequenceEnd

def blockPairs : (fuel : Nat) → Step Unit
  | 0 => refuse
  | fuel + 1 => do
    if ← skipIf .key then
      nodeUnless fuel true true [.key, .value, .blockEnd]
      if ← skipIf .value then nodeUnless fuel true true [.key, .value, .blockEnd] else emit empty
      blockPairs fuel
    else if ← skipIf .blockEnd then emit .mappingEnd
    else refuse

def flowItems : (fuel : Nat) → (first : Bool) → Step Unit
  | 0, _ => refuse
  | fuel + 1, first => do
    if ← skipIf .flowSequenceEnd then emit .sequenceEnd
    else
      if !first then
        if !(← skipIf .flowEntry) then refuse
      if ← skipIf .key then
        emit (.mappingStart noProperties)
        singlePair fuel
        emit .mappingEnd
        flowItems fuel false
      else if ← skipIf .flowSequenceEnd then emit .sequenceEnd
      else
        node fuel false false
        flowItems fuel false

/-- A pair that is an item of a sequence in brackets. Without a key the token after it is lost. -/
def singlePair : (fuel : Nat) → Step Unit
  | 0 => refuse
  | fuel + 1 => do
    let next ← peek
    if next.any [Token.value, .flowEntry, .flowSequenceEnd].contains then
      skip
      emit empty
    else node fuel false false
    if ← skipIf .value then nodeUnless fuel false false [.flowEntry, .flowSequenceEnd]
    else emit empty

def flowPairs : (fuel : Nat) → (first : Bool) → Step Unit
  | 0, _ => refuse
  | fuel + 1, first => do
    if ← skipIf .flowMappingEnd then emit .mappingEnd
    else
      if !first then
        if !(← skipIf .flowEntry) then refuse
      if ← skipIf .key then
        nodeUnless fuel false false [.value, .flowEntry, .flowMappingEnd]
        if ← skipIf .value then nodeUnless fuel false false [.flowEntry, .flowMappingEnd]
        else emit empty
        flowPairs fuel false
      else if ← skipIf .flowMappingEnd then emit .mappingEnd
      else
        node fuel false false
        emit empty
        flowPairs fuel false

end

end Event

end BuildMatrix.Yaml
