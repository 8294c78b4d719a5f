import PathStore.Workspace.Basic

/-!
# Databases as text

Between runs a database rests in a text with one line for each pair: the name
of the tree, the key and the value in hexadecimal, with blanks between them.
A tree without pairs has no line, as it reads like a tree that was never
written.
-/

namespace PathStore

/-- A pair with the name of its tree. -/
structure Record where
  tree : String
  key : Key
  value : Value
deriving DecidableEq, Repr

namespace Record

/-- The line of a record. -/
def line (record : Record) : String :=
  " ".intercalate
    [Hex.encode (Text.utf8 record.tree.toList), record.key.render, Hex.encode record.value]

/-- The bytes of a hexadecimal text, if it is one. -/
def bytes? (text : String) : Option Bytes :=
  (Hex.decode text).toOption

/-- Reads a line. -/
def ofLine? (line : String) : Option Record :=
  match line.splitOn " " with
  | [tree, key, value] => do
    let tree ← String.fromUTF8? (← bytes? tree).toByteArray
    return ⟨tree, ⟨← bytes? key⟩, ← bytes? value⟩
  | _ => none

end Record

namespace Database

/-- The pairs of all trees. -/
def records (database : Database) : List Record :=
  database.entries.flatMap fun tree =>
    tree.2.entries.map fun pair => ⟨tree.1, pair.1, pair.2⟩

/-- Adds a record to the pairs of its tree. -/
def add (database : Database) (record : Record) : Database :=
  let pairs := (database.get? record.tree).getD Table.empty
  database.insert record.tree (pairs.insert record.key record.value)

/-- The database with the given records.  Of two records with one key in one
tree the later one counts. -/
def ofRecords (records : List Record) : Database :=
  records.foldl add Table.empty

/-- The text of a database. -/
def render (database : Database) : String :=
  String.join (database.records.map fun record => record.line ++ "\n")

/-- Reads the text of a database. -/
def ofText? (text : String) : Option Database :=
  (((text.splitOn "\n").filter (· ≠ "")).mapM Record.ofLine?).map ofRecords

end Database

end PathStore
