import PathStore.Json.Reader
import PathStore.Settings.Basic

/-!
# Settings as JSON

Settings are written as a record with all four fields.  They are read from a
record with any of the fields in any order, unknown fields being passed over,
or from a list that gives the first few fields by position.  What is not given
keeps its default.
-/

namespace PathStore.Settings

open Json

/-- A field of the settings. -/
inductive Field where
  | dataDir
  | tree
  | databaseReset
  | temporary
deriving DecidableEq, Repr

namespace Field

/-- The fields in the order of their positions. -/
def all : List Field := [dataDir, tree, databaseReset, temporary]

/-- The name of a field. -/
def name : Field → String
  | dataDir => "data_dir"
  | tree => "tree"
  | databaseReset => "database_reset"
  | temporary => "temporary"

/-- The field with a name. -/
def named? (name : String) : Option Field :=
  all.find? fun field => field.name = name

end Field

/-- Settings that are given in part. -/
structure Draft where
  dataDir : Option String
  tree : Option String
  databaseReset : Option Bool
  temporary : Option Bool
deriving DecidableEq, Repr

namespace Draft

/-- Nothing is given. -/
def empty : Draft := ⟨none, none, none, none⟩

/-- A field is given. -/
def gives (draft : Draft) : Field → Bool
  | .dataDir => draft.dataDir.isSome
  | .tree => draft.tree.isSome
  | .databaseReset => draft.databaseReset.isSome
  | .temporary => draft.temporary.isSome

/-- The settings, with the default for what is not given. -/
def complete (draft : Draft) : Settings where
  dataDir := draft.dataDir.getD default.dataDir
  tree := draft.tree.getD default.tree
  databaseReset := draft.databaseReset.getD default.databaseReset
  temporary := draft.temporary.getD default.temporary

/-- Reads the value of a field. -/
def readValue (draft : Draft) : Field → Reader Draft
  | .dataDir => do return { draft with dataDir := some (← readString "path string") }
  | .tree => do return { draft with tree := some (← readString "a string") }
  | .databaseReset => do return { draft with databaseReset := some (← readBool "a boolean") }
  | .temporary => do return { draft with temporary := some (← readBool "a boolean") }

theorem neverGrows_readValue (draft : Draft) (field : Field) :
    (draft.readValue field).NeverGrows := by
  cases field
  all_goals
    exact Reader.neverGrows_bind (advances_readToken _).neverGrows
      fun _ => Reader.neverGrows_pure _

/-- Reads what stands behind a key.  A field that is given twice is refused
before its second value is read. -/
def readField (draft : Draft) (name : String) : Reader Draft :=
  match Field.named? name with
  | some field =>
    if draft.gives field then throw (.mismatch (.duplicateField field.name))
    else do
      readMark .colon
      draft.readValue field
  | none => do
    readMark .colon
    passValue .grammar
    return draft

theorem advances_readField (draft : Draft) (name : String) :
    (draft.readField name).Advances := by
  unfold readField
  split
  · split
    · exact Reader.advances_throw _
    · exact Reader.advances_bind (advances_readToken _) fun _ => neverGrows_readValue draft _
  · exact Reader.advances_bind (advances_readToken _) fun _ =>
      Reader.neverGrows_bind (advances_passValue _).neverGrows fun _ => Reader.neverGrows_pure _

/-- Reads the further values of a list, one for each of `fields`. -/
def readFurther (draft : Draft) : List Field → Reader Draft
  | [] => do
    readMark .closeList
    return draft
  | field :: fields => fun tokens =>
    match tokens with
    | [] => .error .unexpectedEnd
    | .closeList :: rest => .ok (draft, rest)
    | .comma :: rest =>
      (do
        let draft ← draft.readValue field
        draft.readFurther fields : Reader Draft).run rest
    | _ :: _ => .error .malformed

/-- Reads the values of a list by position. -/
def readPositions : Reader Draft
  | .closeList :: rest => .ok (empty, rest)
  | tokens =>
    (do
      let draft ← empty.readValue .dataDir
      draft.readFurther [.tree, .databaseReset, .temporary] : Reader Draft).run tokens

end Draft

/-- Reads settings. -/
def read : Reader Settings
  | [] => .error .unexpectedEnd
  | .openRecord :: rest =>
    (Draft.complete <$> readRecord Draft.readField Draft.advances_readField Draft.empty).run rest
  | .openList :: rest => (Draft.complete <$> Draft.readPositions).run rest
  | token :: _ => .error (refusal "struct StoreConfig" token)

/-- Reads the settings that a text holds. -/
def ofJson (text : String) : Except ReadError Settings :=
  document read text.toList

/-- A truth value as it is written. -/
def writeBool : Bool → List Char
  | true => ['t', 'r', 'u', 'e']
  | false => ['f', 'a', 'l', 's', 'e']

/-- A field with its value as it is written. -/
def writeField (settings : Settings) (field : Field) : List Char :=
  Text.quote field.name ++ ':' ::
    match field with
    | .dataDir => Text.quote settings.dataDir
    | .tree => Text.quote settings.tree
    | .databaseReset => writeBool settings.databaseReset
    | .temporary => writeBool settings.temporary

/-- The settings as JSON, without blanks. -/
def toJson (settings : Settings) : String :=
  String.ofList ('\x7b' ::
    (List.intercalate [','] (Field.all.map settings.writeField) ++ ['\x7d']))

end PathStore.Settings
