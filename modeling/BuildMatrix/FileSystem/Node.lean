import BuildMatrix.Text.Utf8

/-!
# File trees

A node of a file tree is a regular file, a symbolic link or a directory. Directories list their
entries in the order in which they were made. A location is a list of names from a directory
downwards; looking up and placing nodes by location does not follow links.
-/

namespace BuildMatrix

mutual

/-- A file, a link, or a directory. -/
inductive Node where
  | file (contents : Bytes) (executable : Bool)
  | link (target : String)
  | directory (entries : Entries)

/-- The entries of a directory, each under its name. -/
inductive Entries where
  | nil
  | cons (name : String) (node : Node) (rest : Entries)

end

deriving instance Repr for Node, Entries

/-- What the list of a directory tells of an entry. -/
inductive EntryKind where
  | file
  | link
  | directory
deriving DecidableEq, Repr

def Node.entryKind : Node → EntryKind
  | .file .. => .file
  | .link _ => .link
  | .directory _ => .directory

/-- Names from a directory downwards. -/
abbrev Location := List String

namespace Entries

/-- The entries with their names, in order. -/
def toList : Entries → List (String × Node)
  | nil => []
  | cons name node rest => (name, node) :: rest.toList

/-- The names with the kinds of the entries, in order. -/
def kinds : Entries → List (String × EntryKind)
  | nil => []
  | cons name node rest => (name, node.entryKind) :: rest.kinds

def ofList : List (String × Node) → Entries
  | [] => nil
  | (name, node) :: rest => cons name node (ofList rest)

def find? (name : String) : Entries → Option Node
  | nil => none
  | cons n node rest => if n = name then some node else rest.find? name

/-- Puts a node under a name: in the place of the node that has the name, or at the end. -/
def insert (name : String) (node : Node) : Entries → Entries
  | nil => cons name node nil
  | cons n old rest =>
    if n = name then cons n node rest else cons n old (rest.insert name node)

def erase (name : String) : Entries → Entries
  | nil => nil
  | cons n node rest => if n = name then rest else cons n node (rest.erase name)

end Entries

namespace Node

def entries? : Node → Option Entries
  | directory entries => some entries
  | _ => none

def get? (node : Node) : Location → Option Node
  | [] => some node
  | name :: rest => node.entries?.bind fun entries => (entries.find? name).bind fun child =>
      child.get? rest

/-- Puts a node at a location; without the directories on the way, nothing changes. -/
def place : Node → Location → Node → Node
  | _, [], new => new
  | directory entries, [name], new => directory (entries.insert name new)
  | directory entries, name :: next :: rest, new =>
    match entries.find? name with
    | some child => directory (entries.insert name (place child (next :: rest) new))
    | none => directory entries
  | node, _ :: _, _ => node

def remove : Node → Location → Node
  | node, [] => node
  | directory entries, [name] => directory (entries.erase name)
  | directory entries, name :: next :: rest =>
    match entries.find? name with
    | some child => directory (entries.insert name (remove child (next :: rest)))
    | none => directory entries
  | node, _ :: _ => node

mutual

/-- Every node below a node with its location, directories before what they hold. -/
def descendants (location : Location) : Node → List (Location × Node)
  | directory entries => entriesDescendants location entries
  | _ => []

/-- Every entry with its location, and every node below it. -/
def entriesDescendants (location : Location) : Entries → List (Location × Node)
  | .nil => []
  | .cons name node rest =>
    (location ++ [name], node) :: (descendants (location ++ [name]) node
      ++ entriesDescendants location rest)

end

end Node

end BuildMatrix
