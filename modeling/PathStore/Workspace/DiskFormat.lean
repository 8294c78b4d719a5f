import PathStore.Decimal.Digits

/-!
# The format of a database on disk

A database notes the format of its files in a text, one property a line: its
name, a colon with a blank, and its value.  The lines may stand in any order.
The last line of a name counts, and names without a meaning are passed over.
-/

namespace PathStore

/-- How the files of a database are laid out. -/
structure DiskFormat where
  segmentSize : Nat
  compressed : Bool
  /-- The major and the minor number. -/
  version : Nat × Nat
deriving DecidableEq, Repr

namespace DiskFormat

/-- The format that this library writes. -/
def current : DiskFormat := ⟨524288, false, (0, 34)⟩

instance : Inhabited DiskFormat := ⟨current⟩

/-- The text of a format. -/
def render (format : DiskFormat) : String :=
  "segment_size: " ++ toString format.segmentSize ++ "\n"
    ++ "use_compression: " ++ (if format.compressed then "true" else "false") ++ "\n"
    ++ "version: " ++ toString format.version.1 ++ "." ++ toString format.version.2 ++ "\n"

/-- A line without the carriage return before its line feed. -/
def withoutReturn (line : String) : String :=
  if line.toList.getLast? = some '\r' then String.ofList line.toList.dropLast else line

/-- The lines of a text that was split at its line feeds.  Nothing behind the
last line feed is no line. -/
def lines : List String → List String
  | [] => []
  | [last] => if last = "" then [] else [last]
  | line :: rest => withoutReturn line :: lines rest

/-- A text that is split at a character. -/
def split (mark : Char) (text : String) : List String :=
  (text.toList.splitOn mark).map String.ofList

/-- What stands before the first colon with a blank, and what stands behind it. -/
def cut? : List Char → Option (List Char × List Char)
  | ':' :: ' ' :: rest => some ([], rest)
  | c :: rest => (cut? rest).map fun (before, behind) => (c :: before, behind)
  | [] => none

/-- Reads a property with its value, up to a second colon with a blank. -/
def property? (line : String) : Option (String × String) := do
  let (name, behind) ← cut? line.toList
  let value := ((cut? behind).map Prod.fst).getD behind
  return (String.ofList name, String.ofList value)

/-- Reads a truth value. -/
def truth? : String → Option Bool
  | "true" => some true
  | "false" => some false
  | _ => none

/-- Reads a version, up to a second point. -/
def version? (text : String) : Option (Nat × Nat) :=
  match split '.' text with
  | major :: minor :: _ => do
    return (← Decimal.count? Decimal.wordLimit major, ← Decimal.count? Decimal.wordLimit minor)
  | _ => none

/-- Reads the text of a format. -/
def ofText? (text : String) : Option DiskFormat := do
  let properties := (← (lines (split '\n' text)).mapM property?).reverse
  let segmentSize ← Decimal.count? Decimal.wordLimit (← properties.lookup "segment_size")
  let compressed ← truth? (← properties.lookup "use_compression")
  let version ← version? (← properties.lookup "version")
  return ⟨segmentSize, compressed, version⟩

end DiskFormat

end PathStore
