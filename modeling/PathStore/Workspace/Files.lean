import PathStore.Store.Tree
import PathStore.Text.Utf8

/-!
# Files of a workspace

A workspace is a tree of directories and files, seen from its working
directory.  The place of a path is settled by its names alone: it begins at the
root or at the working directory, each name goes down, and `..` goes up.  To
follow the path there, name by name, may fail: at the first name that is
missing, is too long, or goes on behind a file.

Changes of files run as actions.  An action that fails part of the way leaves
behind what it changed before.
-/

namespace PathStore

/-- The names that lead from the root to an entry. -/
abbrev Place := List String

/-- What a name stands for. -/
inductive Entry where
  | file (content : Bytes)
  | directory
  /-- The file in which a database keeps its pairs.  It is no text. -/
  | database (trees : Database)
deriving DecidableEq, Repr

namespace Entry

/-- The entry is the file of a database. -/
def isDatabase : Entry → Bool
  | database _ => true
  | _ => false

/-- The trees of a database.  Anything else has none. -/
def trees : Entry → Database
  | database trees => trees
  | _ => Table.empty

end Entry

/-- Entries by place, as they are seen from a working directory. -/
structure Files where
  entries : Table Place Entry
  here : Place
deriving DecidableEq, Repr

/-- Why a path leads nowhere, or why what it leads to is no text. -/
inductive FileError where
  | missing
  | directory
  /-- The path goes on behind a file. -/
  | blocked
  /-- A name or the whole path is too long. -/
  | tooLong
  /-- The path holds a character that no path can hold. -/
  | nul
  /-- The content is no text. -/
  | encoding
deriving DecidableEq, Repr

namespace FileError

/-- The wording of a refusal. -/
def message : FileError → String
  | missing => "No such file or directory (os error 2)"
  | directory => "Is a directory (os error 21)"
  | blocked => "Not a directory (os error 20)"
  | tooLong => "File name too long (os error 36)"
  | nul => "file name contained an unexpected NUL byte"
  | encoding => "stream did not contain valid UTF-8"

end FileError

namespace Place

/-- The place to which a name leads from another place.  The root is above
itself. -/
def step (place : Place) (name : String) : Place :=
  if name = ".." then place.dropLast else place ++ [name]

/-- What stands between the slashes of a path. -/
def parts (path : String) : List String :=
  (path.toList.splitOn '/').map String.ofList

/-- The names of a path, without the ones that stay in place. -/
def names (path : String) : List String :=
  (parts path).filter fun name => name ≠ "" ∧ name ≠ "."

/-- The place where a path begins. -/
def start (here : Place) (path : String) : Place :=
  if path.toList.head? = some '/' then [] else here

/-- The place of a path that is taken in the directory `here`. -/
def ofPath (here : Place) (path : String) : Place :=
  (names path).foldl step (start here path)

/-- A path that leads to a place. -/
def path (place : Place) : String := "/" ++ "/".intercalate place

/-- The places that names pass on their way from a place. -/
def trail : Place → List String → List Place
  | _, [] => []
  | place, name :: rest => place.step name :: trail (place.step name) rest

end Place

/-- A change of files that may fail. -/
abbrev FileAction (α : Type) := ExceptT FileError (StateM Files) α

namespace Files

/-- No entries, seen from a directory. -/
def bare (here : Place) : Files := ⟨Table.empty, here⟩

instance : Inhabited Files := ⟨bare []⟩

/-- What is at a place.  The working directory and the directories above it are
there without an entry. -/
def get? (files : Files) (place : Place) : Option Entry :=
  (files.entries.get? place).or (if place <+: files.here then some .directory else none)

/-- The trees of the database whose file is at a place, if there is one. -/
def trees (files : Files) (place : Place) : Database :=
  ((files.get? place).map Entry.trees).getD Table.empty

/-- Puts an entry at a place. -/
def insert (files : Files) (place : Place) (entry : Entry) : Files :=
  { files with entries := files.entries.insert place entry }

/-- Takes the entry of a place away. -/
def erase (files : Files) (place : Place) : Files :=
  { files with entries := files.entries.erase place }

theorem get?_insert (files : Files) (place other : Place) (entry : Entry) :
    (files.insert place entry).get? other =
      if place = other then some entry else files.get? other := by
  rw [get?, insert, Table.get?_insert]
  split <;> rfl

theorem get?_erase_of_ne (files : Files) {place other : Place} (apart : place ≠ other) :
    (files.erase place).get? other = files.get? other := by
  rw [get?, erase, Table.get?_erase, if_neg apart]
  rfl

/-- The most bytes of a name. -/
def nameLimit : Nat := 255

/-- The most bytes of a path. -/
def pathLimit : Nat := 4095

/-- The path can only lead to a directory. -/
def wantsDirectory (path : String) : Bool :=
  match (Place.parts path).getLast? with
  | some last => last = "" || last = "."
  | none => false

/-- Refuses what can be no path. -/
def checkPath (path : String) : Except FileError Unit :=
  if '\x00' ∈ path.toList then .error .nul
  else if path = "" then .error .missing
  else if pathLimit < path.utf8ByteSize then .error .tooLong
  else .ok ()

/-- Refuses what can be no name. -/
def checkName (name : String) : Except FileError Unit :=
  if nameLimit < name.utf8ByteSize then .error .tooLong else .ok ()

/-- The entries of a directory, by name. -/
def listing (files : Files) (here : Place) : List (String × Entry) :=
  files.entries.entries.filterMap fun (place, entry) => do
    let name ← place.getLast?
    if place = here ++ [name] then return (name, entry) else none

/-- Where names lead from a directory, and what is there. -/
def walk (files : Files) : Place → List String → Except FileError (Place × Entry)
  | here, [] => .ok (here, .directory)
  | here, name :: rest =>
    if name = ".." then walk files (here.step name) rest
    else do
      checkName name
      match files.get? (here.step name) with
      | none => .error .missing
      | some .directory => walk files (here.step name) rest
      | some entry => if rest.isEmpty then .ok (here.step name, entry) else .error .blocked

/-- Where a path leads, and what is there. -/
def find (files : Files) (path : String) : Except FileError (Place × Entry) := do
  checkPath path
  let (place, entry) ← files.walk (.start files.here path) (Place.names path)
  if wantsDirectory path ∧ entry ≠ .directory then .error .blocked
  else return (place, entry)

/-- The path leads somewhere. -/
def holds (files : Files) (path : String) : Bool :=
  (files.find path).toOption.isSome

/-- Reads a file as text. -/
def readText (files : Files) (path : String) : Except FileError String := do
  match (← files.find path).2 with
  | .directory => .error .directory
  | .database _ => .error .encoding
  | .file content =>
    match String.fromUTF8? content.toByteArray with
    | some text => return text
    | none => .error .encoding

/-- The place of a file that may yet have to be made, and what is there now. -/
def spot (files : Files) (path : String) : Except FileError (Place × Option Entry) := do
  checkPath path
  match (Place.names path).getLast? with
  | none | some ".." => .error .directory
  | some last =>
    let (here, entry) ← files.walk (.start files.here path) (Place.names path).dropLast
    checkName last
    if entry = .directory then return (here.step last, files.get? (here.step last))
    else .error .blocked

/-- Goes down names from a directory, making the directories that are
missing. -/
def descend : Place → List String → FileAction Place
  | here, [] => return here
  | here, name :: rest =>
    if name = ".." then descend (here.step name) rest
    else do
      checkName name
      match (← get).get? (here.step name) with
      | some .directory => descend (here.step name) rest
      | some _ => throw .blocked
      | none =>
        modify (·.insert (here.step name) .directory)
        descend (here.step name) rest

/-- Makes a directory and the ones above it. -/
def makeDirectory (path : String) : FileAction Place := do
  checkPath path
  descend (.start (← get).here path) (Place.names path)

/-- Writes a file, making the directories above it. -/
def writeFile (path : String) (content : Bytes) : FileAction Unit := do
  checkPath path
  let _ ← descend (.start (← get).here path) (Place.names path).dropLast
  let (place, entry) ← (← get).spot path
  if entry = some .directory then throw .directory
  else modify (·.insert place (.file content))

end Files

end PathStore
