import PathStore.Json.Reader
import PathStore.Operation

/-!
# Batch files as JSON

A batch file is a record with the field `ops`, or a list of one element in its
place.  Each operation is a record with a tag `op` that may stand anywhere
among its fields, or a list that begins with the tag.  What stands around the
tag is kept as it is until the operation ends, and only then compared with
what the tag asks for.
-/

namespace PathStore.Operation

open Json

/-- The kinds of operation. -/
inductive Kind where
  | put
  | delete
deriving DecidableEq, Repr

namespace Kind

/-- The kind with a name. -/
def named? (name : String) : Option Kind :=
  if name = "put" then some put else if name = "delete" then some delete else none

/-- The kind that a tag names. -/
def ofName (name : String) : Except ReadError Kind :=
  match named? name with
  | some kind => .ok kind
  | none => .error (.mismatch (.unknownVariant name "`put` or `delete`"))

/-- Reads the name of a kind. -/
def read : Reader Kind := do
  let name ← readString "variant identifier"
  StateT.lift (ofName name)

theorem advances_read : read.Advances :=
  Reader.advances_bind (advances_readToken _) fun name => Reader.neverGrows_lift (ofName name)

/-- What a list for this kind was expected to be. -/
def expectation : Kind → String
  | put => "struct variant BatchOp::Put with 2 elements"
  | delete => "struct variant BatchOp::Delete with 1 element"

/-- How many elements a list for this kind has room for. -/
def capacity : Kind → String
  | put => "2 elements in sequence"
  | delete => "1 element in sequence"

end Kind

/-- The text of a value that was kept. -/
def heldText : Shape → Except ReadError String
  | .text value => .ok value
  | shape => .error (.mismatch (.wrongType shape "a string"))

/-- The operands that are known so far. -/
structure Operands where
  key : Option String
  value : Option String
deriving DecidableEq, Repr

namespace Operands

/-- No operand is known. -/
def empty : Operands := ⟨none, none⟩

/-- Takes the fields that were kept, in order.  Fields that the kind does not
ask for are passed over. -/
def takeFields (kind : Kind) : Operands → List (String × Shape) → Except ReadError Operands
  | operands, [] => .ok operands
  | operands, (name, held) :: rest =>
    if name = "key" then
      if operands.key.isSome then .error (.mismatch (.duplicateField "key"))
      else do
        let key ← heldText held
        takeFields kind { operands with key := some key } rest
    else if name = "value" ∧ kind = .put then
      if operands.value.isSome then .error (.mismatch (.duplicateField "value"))
      else do
        let value ← heldText held
        takeFields kind { operands with value := some value } rest
    else takeFields kind operands rest

/-- The operation with these operands.  The key is missed first. -/
def operation (kind : Kind) (operands : Operands) : Except ReadError Operation :=
  match operands.key with
  | none => .error (.mismatch (.missingField "key"))
  | some key =>
    match kind with
    | .delete => .ok (.delete key)
    | .put =>
      match operands.value with
      | none => .error (.mismatch (.missingField "value"))
      | some value => .ok (.put key value)

end Operands

/-- The operation of a kind with its operands by position.  Operands are
judged one by one; one that is missing is noticed in its place, and one too
many at the end. -/
def ofPositions (kind : Kind) (held : List Shape) : Except ReadError Operation :=
  match held with
  | [] => .error (.mismatch (.wrongLength 0 kind.expectation))
  | first :: rest => do
    let key ← heldText first
    match kind, rest with
    | .delete, [] => return .delete key
    | .delete, _ :: _ => .error (.mismatch (.wrongLength held.length kind.capacity))
    | .put, [] => .error (.mismatch (.wrongLength 1 kind.expectation))
    | .put, second :: more => do
      let value ← heldText second
      if more.isEmpty then return .put key value
      else .error (.mismatch (.wrongLength held.length kind.capacity))

/-- A record that has been read in part: its tag and the other fields, the
latest first. -/
structure Fields where
  kind : Option Kind
  others : List (String × Shape)
deriving DecidableEq, Repr

namespace Fields

/-- Nothing has been read. -/
def empty : Fields := ⟨none, []⟩

/-- Reads what stands behind a key, inside of `depth` open brackets. -/
def readField (depth : Nat) (fields : Fields) (name : String) : Reader Fields :=
  if name = "op" then
    if fields.kind.isSome then throw (.mismatch (.duplicateField "op"))
    else do
      readMark .colon
      let kind ← Kind.read
      return { fields with kind := some kind }
  else do
    readMark .colon
    let held ← readHeld depth
    return { fields with others := (name, held) :: fields.others }

theorem advances_readField (depth : Nat) (fields : Fields) (name : String) :
    (readField depth fields name).Advances := by
  unfold readField
  split
  · split
    · exact Reader.advances_throw _
    · exact Reader.advances_bind (advances_readToken _) fun _ =>
        Reader.neverGrows_bind Kind.advances_read.neverGrows fun _ => Reader.neverGrows_pure _
  · exact Reader.advances_bind (advances_readToken _) fun _ =>
      Reader.neverGrows_bind (advances_readHeld depth).neverGrows fun _ =>
        Reader.neverGrows_pure _

/-- The operation that a whole record spells. -/
def operation (fields : Fields) : Except ReadError Operation :=
  match fields.kind with
  | none => .error (.mismatch (.missingField "op"))
  | some kind => do
    let operands ← Operands.empty.takeFields kind fields.others.reverse
    operands.operation kind

end Fields

/-- Reads an operation in the form of a record, from behind its bracket. -/
def readRecordForm (depth : Nat) : Reader Operation := do
  let fields ← readRecord (Fields.readField depth) (Fields.advances_readField depth) Fields.empty
  StateT.lift fields.operation

/-- Reads the rest of an operation in the form of a list, behind its tag. -/
def readOperands (depth : Nat) : Reader (List Shape)
  | [] => .error .unexpectedEnd
  | .closeList :: rest => .ok ([], rest)
  | .comma :: rest => (readItems (readHeld depth) (advances_readHeld depth)).run rest
  | _ :: _ => .error .malformed

theorem advances_readOperands (depth : Nat) : (readOperands depth).Advances := by
  intro tokens held rest done
  simp only [StateT.run] at done
  unfold readOperands at done
  split at done
  · cases done
  · cases done
    exact Nat.lt_succ_self _
  · exact Nat.lt_succ_of_lt (advances_readItems _ _ done)
  · cases done

/-- Reads an operation in the form of a list, from behind its bracket. -/
def readListForm (depth : Nat) : Reader Operation := do
  let kind ← Kind.read
  let held ← readOperands depth
  StateT.lift (ofPositions kind held)

/-- Reads an operation inside of `depth` open brackets. -/
def read (depth : Nat) : Reader Operation
  | [] => .error .unexpectedEnd
  | .openRecord :: rest => (readRecordForm (depth + 1)).run rest
  | .openList :: .closeList :: _ => .error (.mismatch (.missingField "op"))
  | .openList :: rest => (readListForm (depth + 1)).run rest
  | token :: _ => .error (refusal "internally tagged enum BatchOp" token)

theorem advances_read (depth : Nat) : (read depth).Advances := by
  intro tokens operation rest done
  simp only [StateT.run] at done
  unfold read at done
  split at done
  · cases done
  · refine Nat.lt_succ_of_lt (Reader.advances_bind ?_ ?_ done)
    · exact advances_readRecord _ (Fields.advances_readField _) _
    · exact fun fields => Reader.neverGrows_lift fields.operation
  · cases done
  · refine Nat.lt_succ_of_lt (Reader.advances_bind Kind.advances_read ?_ done)
    exact fun kind => Reader.neverGrows_bind (advances_readOperands _).neverGrows
      fun held => Reader.neverGrows_lift (ofPositions kind held)
  · cases done

/-- Reads the list of the operations of a file. -/
def readAll : Reader (List Operation)
  | [] => .error .unexpectedEnd
  | .openList :: rest => (readList (read 2) (advances_read 2)).run rest
  | token :: _ => .error (refusal "a sequence" token)

theorem advances_readAll : readAll.Advances := by
  intro tokens operations rest done
  simp only [StateT.run] at done
  unfold readAll at done
  split at done
  · cases done
  · exact Nat.lt_succ_of_lt (advances_readList _ _ done)
  · cases done

/-- Reads what stands behind a key of a batch file. -/
def readFileField (operations : Option (List Operation)) (name : String) :
    Reader (Option (List Operation)) :=
  if name = "ops" then
    if operations.isSome then throw (.mismatch (.duplicateField "ops"))
    else do
      readMark .colon
      let operations ← readAll
      return some operations
  else do
    readMark .colon
    passValue .grammar
    return operations

theorem advances_readFileField (operations : Option (List Operation)) (name : String) :
    (readFileField operations name).Advances := by
  unfold readFileField
  split
  · split
    · exact Reader.advances_throw _
    · exact Reader.advances_bind (advances_readToken _) fun _ =>
        Reader.neverGrows_bind advances_readAll.neverGrows fun _ => Reader.neverGrows_pure _
  · exact Reader.advances_bind (advances_readToken _) fun _ =>
      Reader.neverGrows_bind (advances_passValue _).neverGrows fun _ => Reader.neverGrows_pure _

/-- The operations that a whole file has given. -/
def ofFileFields : Option (List Operation) → Except ReadError (List Operation)
  | some operations => .ok operations
  | none => .error (.mismatch (.missingField "ops"))

/-- Reads a batch file in the form of a record, from behind its bracket. -/
def readFileRecord : Reader (List Operation) := do
  let operations ← readRecord readFileField advances_readFileField none
  StateT.lift (ofFileFields operations)

/-- Reads a batch file in the form of a list, from behind its bracket. -/
def readFileList : Reader (List Operation) := do
  let operations ← readAll
  readMark .closeList
  return operations

/-- Reads a batch file. -/
def readFile : Reader (List Operation)
  | [] => .error .unexpectedEnd
  | .openRecord :: rest => readFileRecord.run rest
  | .openList :: .closeList :: _ =>
    .error (.mismatch (.wrongLength 0 "struct BatchFile with 1 element"))
  | .openList :: rest => readFileList.run rest
  | token :: _ => .error (refusal "struct BatchFile" token)

/-- Reads the operations that the text of a batch file holds. -/
def ofJson (text : String) : Except ReadError (List Operation) :=
  document readFile text.toList

end PathStore.Operation
