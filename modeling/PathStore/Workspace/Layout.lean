import PathStore.Workspace.DiskFormat
import PathStore.Workspace.Files

/-!
# The directory of a database

A database keeps its entries in a directory: its pairs, the format that it was
made with, a place for large values, and a checkpoint.  Claiming a directory
makes what is missing, in this order: the place for large values with all
directories above it, the format, the file of pairs.  A directory with another
format is refused.

A claimed database is recovered from the latest checkpoint and the log behind
it.  A database makes its first checkpoint when it is opened again; a
checkpoint that it did not make spoils it.

This is one engine's way.  Nothing that is proved of commands rests on it, but
for runs in this very workspace.
-/

namespace PathStore

/-- Why a database is not opened. -/
inductive OpenError where
  | file (cause : FileError)
  /-- The directory notes a format that is not read. -/
  | foreignFormat
  /-- The latest checkpoint was not made by this database. -/
  | foreignCheckpoint
  /-- There is a checkpoint, but the pairs are not those that it was made of. -/
  | foreignPairs
  /-- There are pairs, but no directory for large values. -/
  | noValueDirectory
  | inUse
deriving DecidableEq, Repr

namespace OpenError

/-- The wording of a refusal. -/
def message : OpenError → String
  | file cause => "IO error: " ++ cause.message
  | foreignFormat => "the format of the database is not supported"
  | foreignCheckpoint => "the latest checkpoint is damaged"
  | foreignPairs => "the pairs do not belong to the latest checkpoint"
  | noValueDirectory => "the directory of large values is missing"
  | inUse => "the database is in use"

end OpenError

namespace Layout

/-- The path of a name in a directory. -/
def inside (directory name : String) : String :=
  if directory = "" ∨ directory.toList.getLast? = some '/' then directory ++ name
  else directory ++ "/" ++ name

/-- The name of the place for large values. -/
def largeValues : String := "blobs"

/-- The name of the file that notes the format. -/
def format : String := "conf"

/-- The name of the file of pairs. -/
def pairs : String := "db"

/-- The name of the checkpoint. -/
def checkpoint : String := "snap.0000000000000200"

/-- The checksum behind the text of the format. -/
def checksum : Bytes := [0x76, 0x19, 0x51, 0xc1]

/-- The file that notes the format. -/
def formatFile : Bytes := Text.utf8 DiskFormat.current.render.toList ++ checksum

/-- A file that notes a format and is not longer than this counts as none. -/
def emptyFormat : Nat := 8

/-- The file of the checkpoint. -/
def checkpointFile : Bytes := Text.utf8 "checkpoint\n".toList

/-- Large values with numbers from here on lie behind the end of the log. -/
def logEnd : Nat := 700

/-- An action on the files of a directory that is being claimed. -/
abbrev Claim (α : Type) := ExceptT OpenError (StateM Files) α

/-- A change of files as part of a claim. -/
def change {α : Type} (action : FileAction α) : Claim α :=
  ExceptT.adapt OpenError.file action

/-- What a path leads to, as part of a claim. -/
def look {α : Type} (question : Files → Except FileError α) : Claim α := do
  match question (← get) with
  | .ok answer => return answer
  | .error cause => throw (.file cause)

/-- Notes the format. -/
def writeFormat (directory : String) : Claim Unit := do
  let (place, _) ← look (·.spot (inside directory format))
  modify (·.insert place (.file formatFile))

/-- The format that a file notes.  The checksum may be any. -/
def format? (content : Bytes) : Option DiskFormat := do
  let text := content.take (content.length - checksum.length)
  DiskFormat.ofText? (← String.fromUTF8? text.toByteArray)

/-- Checks the format, and notes it if there is none. -/
def checkFormat (directory : String) : Claim Unit := do
  match (← get).find (inside directory format) with
  | .error .missing => writeFormat directory
  | .error cause => throw (.file cause)
  | .ok (_, .file content) =>
    if content.length ≤ emptyFormat then writeFormat directory
    else if format? content = some .current then return
    else throw .foreignFormat
  | .ok _ => throw (.file .directory)

/-- Makes the place for large values if it is missing. -/
def makeLargeValues (directory : String) : Claim Unit := do
  unless (← get).holds (inside directory largeValues) do
    let _ ← change (Files.makeDirectory (inside directory largeValues))

/-- The place of the file of pairs, with what is there.  A file of pairs that
is missing is made, and is empty. -/
def findPairs (directory : String) : Claim (Place × Entry) := do
  match ← look (·.spot (inside directory pairs)) with
  | (_, some .directory) => throw (.file .directory)
  | (place, some entry) => return (place, entry)
  | (place, none) =>
    modify (·.insert place (.file []))
    return (place, .file [])

/-- Claims the directory of a path and gives the place of its file of pairs,
with what is there. -/
def claim (directory : String) : Claim (Place × Entry) := do
  makeLargeValues directory
  checkFormat directory
  findPairs directory

/-- The name is that of a finished checkpoint. -/
def isCheckpoint (name : String) : Bool :=
  "snap.".toList.isPrefixOf name.toList && !".in___motion".toList.isSuffixOf name.toList

/-- A directory that is spelled like this shows its checkpoints: its path does
not end with a name that stays in place. -/
def showsCheckpoints (directory : String) : Bool :=
  let path := inside directory ""
  let above := (Place.parts path).dropLast
  match above.getLast? with
  | none => true
  | some last => last ≠ "." ∧ (last ≠ "" ∨ above.length = 1)

/-- The entry with the greatest name. -/
def latest? : List (String × Entry) → Option (String × Entry)
  | [] => none
  | entry :: rest =>
    match latest? rest with
    | some other => if entry.1 < other.1 then some other else some entry
    | none => some entry

/-- Removes a large value if it lies behind the end of the log. -/
def sweepValue (place : Place) (value : String × Entry) : Claim Unit := do
  if (Decimal.count? (Decimal.wordLimit / 2) value.1).any (logEnd ≤ ·) then
    if value.2 = .directory then throw (.file .directory)
    else modify (·.erase (place ++ [value.1]))

/-- Removes the large values that lie behind the end of the log. -/
def sweep (here : Place) : Claim Unit := do
  let place := here ++ [largeValues]
  unless (← get).get? place = some .directory do throw .noValueDirectory
  ((← get).listing place).forM (sweepValue place)

/-- Refuses a latest checkpoint that the database did not make, or that was
made of other pairs. -/
def checkCheckpoint (directory : String) (here : Place) (found : Entry) : Claim Unit := do
  let files ← get
  let checkpoints :=
    if showsCheckpoints directory then
      (files.listing here).filter fun entry => isCheckpoint entry.1
    else []
  match latest? checkpoints with
  | some (_, entry) =>
    if entry ≠ .file checkpointFile then throw .foreignCheckpoint
    else if ¬ found.isDatabase then throw .foreignPairs
  | none => pure ()

/-- Recovers the pairs of a claimed directory that was found with a file of
pairs.  Pairs of another kind are not looked at. -/
def recover (directory : String) (here : Place) (found : Entry) : Claim Unit := do
  checkCheckpoint directory here found
  if found.isDatabase then
    sweep here
    modify (·.insert (here ++ [checkpoint]) (.file checkpointFile))

/-- Refuses a directory that is open already. -/
def checkFree (inUse : Place → Bool) (here : Place) : Claim Unit :=
  if inUse here then throw .inUse else pure ()

/-- Puts an empty database where none was found. -/
def overwrite (place : Place) (found : Entry) : Claim Unit :=
  if found.isDatabase then pure () else modify (·.insert place (.database Table.empty))

/-- Opens the database of a directory, which is made if it is missing, and gives
its place.  A file of pairs that is not the database's own is overwritten. -/
def openDirectory (inUse : Place → Bool) (directory : String) : Claim Place := do
  let (place, found) ← claim directory
  checkFree inUse place.dropLast
  recover directory place.dropLast found
  overwrite place found
  return place.dropLast

end Layout

end PathStore
