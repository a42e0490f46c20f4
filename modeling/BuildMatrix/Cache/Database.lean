import BuildMatrix.Cache.Table
import BuildMatrix.FileSystem.Operations

/-!
# Databases

A table of entries is kept in a database file. A new file, and an empty one, become a database
without rows. A file with other contents is no database.
-/

namespace BuildMatrix

inductive DatabaseError where
  | nulInPath (path : String)
  /-- There is no directory for the file, or a directory in its place. -/
  | noFile (path : String)
  | notDatabase
deriving DecidableEq, Repr

/-- The texts shown to the user, the cause last. -/
def DatabaseError.chain : DatabaseError → List String
  | nulInPath path =>
    let cause := "filename passed to SQLite must not contain nul bytes"
    [s!"Failed to open cache database {path}", "error communicating with database: " ++ cause,
      cause]
  | noFile path =>
    let cause := "(code: 14) unable to open database file"
    [s!"Failed to open cache database {path}", "error returned from database: " ++ cause, cause]
  | notDatabase =>
    let cause := "(code: 26) file is not a database"
    ["Failed to create cache table", "error returned from database: " ++ cause, cause]

/-- The tables of all databases. A database file has the position of its table in the list. -/
structure Databases where
  tables : List EntryTable
deriving DecidableEq, Repr

namespace Databases

def empty : Databases := ⟨[]⟩

def header : Bytes := Utf8.encode "SQLite format 3" ++ [0]

def contents (position : Nat) : Bytes := header ++ Utf8.encode (toString position)

/-- The position of the table whose file has the given contents. -/
def position? (databases : Databases) (bytes : Bytes) : Option Nat :=
  (List.range databases.tables.length).find? fun position => contents position == bytes

def table (databases : Databases) (position : Nat) : EntryTable :=
  databases.tables.getD position .empty

def update (databases : Databases) (position : Nat) (table : EntryTable) : Databases :=
  ⟨databases.tables.set position table⟩

/-- Opens the database in a file. The result has the position of its table. -/
def openFile (databases : Databases) (files : FileSystem) (path : String) :
    Except DatabaseError (Databases × FileSystem × Nat) :=
  let fresh : Except DatabaseError (Databases × FileSystem × Nat) :=
    let position := databases.tables.length
    match files.write path (contents position) with
    | .ok files => .ok (⟨databases.tables ++ [.empty]⟩, files, position)
    | .error _ => .error (.noFile path)
  if path.toList.contains (Char.ofNat 0) then .error (.nulInPath path)
  else match files.read path with
    | .ok [] => fresh
    | .ok bytes =>
      match databases.position? bytes with
      | some position => .ok (databases, files, position)
      | none => .error .notDatabase
    | .error .missing => fresh
    | .error _ => .error (.noFile path)

end Databases

end BuildMatrix
