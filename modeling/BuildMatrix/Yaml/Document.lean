import BuildMatrix.Yaml.Event

/-!
# YAML documents

A text holds at most one document. An anchor names the node that follows it, and an alias stands
for the node of the last anchor of its name before it. Nodes are kept as a tree in which aliases
stand as they are written, since a node may hold an alias of itself.

Anchors are numbered by the count of different names before them. An anchor that takes a name again
may therefore share its number with a later anchor, which then takes its place.
-/

namespace BuildMatrix.Yaml

namespace Event

/-- The tokens before a document. -/
structure Directives where
  version : Bool
  handles : List (String × Bytes)
deriving Repr

/-- What the tag handles stand for unless a directive says otherwise. -/
def defaultHandles : List (String × Bytes) :=
  [("!", Utf8.encode "!"), ("!!", Utf8.encode "tag:yaml.org,2002:")]

/-- The directives before a document; none may be repeated. -/
def directives? (known : Directives) : List Token → Option (Directives × List Token)
  | .version major minor :: rest =>
    if known.version || major != 1 || (minor != 1 && minor != 2) then none
    else directives? { known with version := true } rest
  | .tagHandle handle meaning :: rest =>
    if known.handles.any fun h => h.1 = handle then none
    else directives? { known with handles := known.handles ++ [(handle, meaning)] } rest
  | rest => some (known, rest)

def betweenDocuments : Token → Bool
  | .version .. | .tagHandle .. | .documentStart | .documentEnd => true
  | _ => false

/-- The root of a document, which is empty if another document or nothing follows. -/
def root (fuel : Nat) : Step Unit := do
  let next ← peek
  if next.all betweenDocuments then emit empty else node fuel true false

/-- The events of the only document; none of a text without documents. -/
def ofTokens? (tokens : List Token) : Option (List Event) := do
  let fuel := 4 * tokens.length + 8
  let finish (result : Unit × State) : Option (List Event) :=
    if result.2.tokens.all (· == .documentEnd) then some result.2.events.reverse else none
  match tokens with
  | [] => some []
  | .version .. :: _ | .tagHandle .. :: _ | .documentStart :: _ =>
    match ← directives? ⟨false, []⟩ tokens with
    | (directives, .documentStart :: rest) =>
      finish (← (root fuel).run ⟨rest, [], directives.handles ++ defaultHandles⟩)
    | _ => none
  | _ => finish (← (node fuel true false).run ⟨tokens, [], defaultHandles⟩)

def anchor (event : Event) : Option String :=
  match event with
  | .scalar properties .. | .sequenceStart properties | .mappingStart properties =>
    properties.anchor
  | _ => none

end Event

inductive Node where
  | alias (anchor : Nat)
  | scalar (tag : Option Bytes) (text : String) (style : Style)
  | sequence (tag : Option Bytes) (items : List Node)
  | mapping (tag : Option Bytes) (pairs : List (Node × Node))
deriving Repr

/-- The events of a document, each alias with its anchor's number. -/
structure Document where
  events : List (Event × Nat)
  /-- The position of the event at which the node of a numbered anchor starts. -/
  anchors : List (Nat × Nat)
deriving Repr

namespace Document

def empty : Document := ⟨[], []⟩

/--
Numbers the anchors of events from a position on. The arguments are the numbers of the names so far,
the last first, and how many different names there are.
-/
def link? (position : Nat) (names : List (String × Nat)) (count : Nat) :
    List Event → Option Document
  | [] => some empty
  | .alias name :: rest => do
    let (_, number) ← names.find? fun n => n.1 = name
    let document ← link? (position + 1) names count rest
    some { document with events := (.alias name, number) :: document.events }
  | event :: rest => do
    match event.anchor with
    | some name =>
      let known := names.any fun n => n.1 = name
      let document ← link? (position + 1) ((name, count) :: names)
        (if known then count else count + 1) rest
      some ⟨(event, 0) :: document.events,
        if document.anchors.any fun a => a.1 = count then document.anchors
        else (count, position) :: document.anchors⟩
    | none =>
      let document ← link? (position + 1) names count rest
      some { document with events := (event, 0) :: document.events }

/-- Reads the only document of a text; a text without one gives the empty document. -/
def read? (text : String) : Option Document := do
  link? 0 [] 0 (← Event.ofTokens? (← tokens? text.toList))

mutual

/-- The node that starts with the first event, and the events after it. -/
def node? : (fuel : Nat) → List (Event × Nat) → Option (Node × List (Event × Nat))
  | 0, _ => none
  | fuel + 1, events =>
    match events with
    | (.alias _, number) :: rest => some (.alias number, rest)
    | (.scalar properties text style, _) :: rest =>
      some (.scalar properties.tag text style, rest)
    | (.sequenceStart properties, _) :: rest => do
      let (items, rest) ← items? fuel rest
      some (.sequence properties.tag items, rest)
    | (.mappingStart properties, _) :: rest => do
      let (pairs, rest) ← pairs? fuel rest
      some (.mapping properties.tag pairs, rest)
    | _ => none

def items? : (fuel : Nat) → List (Event × Nat) → Option (List Node × List (Event × Nat))
  | 0, _ => none
  | fuel + 1, events =>
    match events with
    | (.sequenceEnd, _) :: rest => some ([], rest)
    | events => do
      let (item, rest) ← node? fuel events
      let (items, rest) ← items? fuel rest
      some (item :: items, rest)

def pairs? : (fuel : Nat) → List (Event × Nat) →
    Option (List (Node × Node) × List (Event × Nat))
  | 0, _ => none
  | fuel + 1, events =>
    match events with
    | (.mappingEnd, _) :: rest => some ([], rest)
    | events => do
      let (key, rest) ← node? fuel events
      let (value, rest) ← node? fuel rest
      let (pairs, rest) ← pairs? fuel rest
      some ((key, value) :: pairs, rest)

end

/-- The node that starts at the event in a position. -/
def nodeAt? (document : Document) (position : Nat) : Option Node :=
  (node? (2 * document.events.length + 1) (document.events.drop position)).map (·.1)

/-- The root, if there is a document. -/
def root? (document : Document) : Option Node := document.nodeAt? 0

def anchored? (document : Document) (number : Nat) : Option Node :=
  (document.anchors.find? fun a => a.1 = number).bind fun a => document.nodeAt? a.2

end Document

end BuildMatrix.Yaml
