import PathStore.Proofs.GrammarReading
import PathStore.Workspace.Load

/-!
# Batch files however they are spelled

An operation may be spelled as a record with its fields in any order, among others
that are passed over, or as a list of the values of its fields.  What stands around the
tag is kept until the record ends, so what a reader knows of the operation half way is
a tag, if it was met, and the operands that the kept fields will give: `Holds` says how
these follow from the fields that were met, and every member that is read carries it on.
-/

namespace PathStore.Operation

open Json

/-! ## What spells an operation -/

/-- The name of a kind. -/
def Kind.name : Kind → String
  | put => "put"
  | delete => "delete"

/-- The kind of an operation. -/
def kind : Operation → Kind
  | put _ _ => .put
  | delete _ => .delete

/-- The tag and the operands of an operation by their names, in the order of their positions. -/
def parts : Operation → List (String × String)
  | put key value => [("op", "put"), ("key", key), ("value", value)]
  | delete key => [("op", "delete"), ("key", key)]

/-- How many brackets are open around the members of an operation. -/
def membersDepth : Nat := 3

/-- The member is a field of the operation; or it has another name, and then its value
is kept for nothing.  The names of such members meet the demands on names. -/
def Gives (naming : Demands) (operation : Operation) (member : Member) :
    Option (String × String) → Prop
  | some (name, value) => member.IsNamed name ∧ Says value member.value
  | none =>
    naming.text member.name ∧ (∀ field ∈ operation.parts, ¬ member.IsNamed field.1) ∧
      ∃ nested, membersDepth + nested < Care.nestingLimit ∧ Json.Value .meaning nested member.value

/-- The text spells the operation, as a record or as a list. -/
def Spelled (naming : Demands) (operation : Operation) (text : List Char) : Prop :=
  RecordGiving (operation.Gives naming) operation.parts text ∨
    ListOf Says (operation.parts.map Prod.snd) text

/-- The text is a batch file with these operations, each spelled in its own way.  Members
beside them may have any value, and their names meet the demands on names. -/
def FileOf (naming : Demands) (operations : List Operation) (text : List Char) : Prop :=
  (∃ before ops after, ops.IsNamed "ops" ∧ ListOf (Spelled naming) operations ops.value ∧
    (∀ member ∈ before ++ after, naming.text member.name ∧ ¬ member.IsNamed "ops" ∧
      ∃ nested, Json.Value .grammar nested member.value) ∧
    RecordOf (before ++ ops :: after) text) ∨
  ∃ list, ListOf (Spelled naming) operations list ∧ Enclosed '[' ']' [list] text

/-! ## Kinds -/

namespace Kind

theorem ofName_name (kind : Kind) : ofName kind.name = .ok kind := by
  cases kind <;> rfl

theorem reads {kind : Kind} {text : List Char} (spelled : Says kind.name text) :
    Kind.read.Reads text kind :=
  (Says.reads spelled _).bind_of_ok fun tokens => by rw [ofName_name]; rfl

end Kind

theorem mem_parts_op (operation : Operation) {name : String} :
    ("op", name) ∈ operation.parts ↔ name = operation.kind.name := by
  cases operation <;> simp [parts, kind, Kind.name]

theorem cases_of_mem_parts {operation : Operation} {name value : String}
    (isField : (name, value) ∈ operation.parts) :
    name = "op" ∧ value = operation.kind.name ∨ name = "key" ∨
      name = "value" ∧ operation.kind = .put := by
  cases operation with
  | put key other =>
      simp only [parts, List.mem_cons, Prod.mk.injEq, List.not_mem_nil, or_false] at isField
      obtain isTag | isKey | isValue := isField
      · exact .inl isTag
      · exact .inr (.inl isKey.1)
      · exact .inr (.inr ⟨isValue.1, rfl⟩)
  | delete key =>
      simp only [parts, List.mem_cons, Prod.mk.injEq, List.not_mem_nil, or_false] at isField
      obtain isTag | isKey := isField
      · exact .inl isTag
      · exact .inr (.inl isKey.1)

/-! ## Kept fields -/

namespace Operands

theorem takeFields_concat (kind : Kind) (operands : Operands) (kept : List (String × Shape))
    (field : String × Shape) :
    takeFields kind operands (kept ++ [field]) =
      (takeFields kind operands kept).bind fun operands => takeFields kind operands [field] := by
  induction kept generalizing operands with
  | nil => rfl
  | cons first kept ih =>
      obtain ⟨name, held⟩ := first
      rw [List.cons_append, takeFields, takeFields]
      split_ifs
      · rfl
      · cases heldText held with
        | error error => rfl
        | ok key => exact ih _
      · rfl
      · cases heldText held with
        | error error => rfl
        | ok value => exact ih _
      · exact ih _

variable {kind : Kind} {operands : Operands}

theorem takeFields_key (unmet : operands.key = none) (key : String) :
    takeFields kind operands [("key", .text key)] = .ok { operands with key := some key } := by
  rw [takeFields, if_pos rfl, unmet]
  rfl

theorem takeFields_value (isPut : kind = .put) (unmet : operands.value = none) (value : String) :
    takeFields kind operands [("value", .text value)] =
      .ok { operands with value := some value } := by
  rw [takeFields, if_neg (by decide), if_pos ⟨rfl, isPut⟩, unmet]
  rfl

theorem takeFields_other {name : String} (notKey : name ≠ "key")
    (notValue : ¬ (name = "value" ∧ kind = .put)) (shape : Shape) :
    takeFields kind operands [(name, shape)] = .ok operands := by
  rw [takeFields, if_neg notKey, if_neg notValue, takeFields]

/-- The operands are those among the fields that were met. -/
structure Of (operands : Operands) (met : List (String × String)) : Prop where
  key : ∀ key, operands.key = some key ↔ ("key", key) ∈ met
  value : ∀ value, operands.value = some value ↔ ("value", value) ∈ met

end Operands

/-! ## Members of an operation -/

/-- A slot for fields of one name is empty until one of them is met. -/
theorem eq_none_of_unmet {α : Type} {slot : Option α} {field : α → String × String}
    {met : List (String × String)} (known : ∀ value, slot = some value ↔ field value ∈ met)
    (unmet : ∀ value, field value ∉ met) : slot = none := by
  rw [Option.eq_none_iff_forall_ne_some]
  intro value isValue
  exact unmet value ((known value).mp isValue)

/-- What is known of an operation when these fields of it were met. -/
structure Holds (operation : Operation) (fields : Fields) (met : List (String × String)) :
    Prop where
  kind : ∀ kind, fields.kind = some kind ↔ ("op", kind.name) ∈ met
  operands : ∃ operands, Operands.empty.takeFields operation.kind fields.others.reverse =
    .ok operands ∧ operands.Of met

theorem holds_empty (operation : Operation) : operation.Holds Fields.empty [] where
  kind _ := by simp [Fields.empty]
  operands := ⟨Operands.empty, rfl, by simp [Operands.empty], by simp [Operands.empty]⟩

section

variable {operation : Operation} {fields : Fields} {met : List (String × String)}
  {member : Member}

theorem takes_tag (isNamed : member.IsNamed "op") {kind : Kind}
    (spelled : Says kind.name member.value) (unmet : fields.kind = none) :
    Takes (Fields.readField membersDepth) fields member { fields with kind := some kind } := by
  refine ⟨"op", isNamed, ?_⟩
  rw [Fields.readField, if_pos rfl, unmet]
  exact ((Kind.reads spelled).bind_pure _).behind_colon

theorem takes_held {name : String} (isNamed : member.IsNamed name) (notTag : name ≠ "op")
    {shape : Shape} (reads : (readHeld membersDepth).Reads member.value shape) :
    Takes (Fields.readField membersDepth) fields member
      { fields with others := (name, shape) :: fields.others } := by
  refine ⟨name, isNamed, ?_⟩
  rw [Fields.readField, if_neg notTag]
  exact (reads.bind_pure _).behind_colon

namespace Holds

theorem tag (holds : operation.Holds fields met) (unmet : ∀ name, ("op", name) ∉ met) :
    operation.Holds { fields with kind := some operation.kind }
      (("op", operation.kind.name) :: met) where
  kind kind := by
    cases operation <;> cases kind <;> simp [Operation.kind, Kind.name, unmet]
  operands := by
    obtain ⟨operands, taken, of⟩ := holds.operands
    exact ⟨operands, taken, by simpa using of.key, by simpa using of.value⟩

/-- A field that is kept counts when the record has ended. -/
theorem held (holds : operation.Holds fields met) {name : String} {shape : Shape}
    {next : List (String × String)} (sameTag : ∀ name, ("op", name) ∈ next ↔ ("op", name) ∈ met)
    (taken : ∀ operands : Operands, operands.Of met →
      ∃ further, operands.takeFields operation.kind [(name, shape)] = .ok further ∧
        further.Of next) :
    operation.Holds { fields with others := (name, shape) :: fields.others } next where
  kind kind := by rw [sameTag, ← holds.kind]
  operands := by
    obtain ⟨operands, before, of⟩ := holds.operands
    obtain ⟨further, last, ofNext⟩ := taken operands of
    refine ⟨further, ?_, ofNext⟩
    -- The latest field is kept in front and taken last.
    rw [List.reverse_cons, Operands.takeFields_concat, before]
    exact last

end Holds

/-- A field of the operation is taken, if it was not met before. -/
theorem Holds.exists_takes_field (holds : operation.Holds fields met) {name value : String}
    (isField : (name, value) ∈ operation.parts) (unmet : ∀ other, (name, other) ∉ met)
    (isNamed : member.IsNamed name) (spelled : Says value member.value) :
    ∃ next, Takes (Fields.readField membersDepth) fields member next ∧
      operation.Holds next ((name, value) :: met) := by
  have kept := spelled.reads_held membersDepth
  obtain ⟨rfl, rfl⟩ | rfl | ⟨rfl, isPut⟩ := cases_of_mem_parts isField
  · have noKind : fields.kind = none := eq_none_of_unmet holds.kind fun kind => unmet kind.name
    exact ⟨_, takes_tag isNamed spelled noKind, holds.tag unmet⟩
  · refine ⟨_, takes_held isNamed (by decide) kept, holds.held (by simp) fun operands of => ?_⟩
    have noKey : operands.key = none := eq_none_of_unmet of.key unmet
    refine ⟨_, Operands.takeFields_key noKey value, ?_, ?_⟩
    · simp [unmet, eq_comm]
    · simpa using of.value
  · refine ⟨_, takes_held isNamed (by decide) kept, holds.held (by simp) fun operands of => ?_⟩
    have noValue : operands.value = none := eq_none_of_unmet of.value unmet
    refine ⟨_, Operands.takeFields_value isPut noValue value, ?_, ?_⟩
    · simpa using of.key
    · simp [unmet, eq_comm]

/-- A member with another name is kept and counts for nothing. -/
theorem Holds.exists_takes_other (holds : operation.Holds fields met)
    (other : operation.Gives .meaning member none) :
    ∃ next, Takes (Fields.readField membersDepth) fields member next ∧
      operation.Holds next met := by
  obtain ⟨meant, notField, nested, shallow, value⟩ := other
  obtain ⟨name, isNamed⟩ := Member.exists_isNamed meant
  obtain ⟨shape, kept⟩ := value.exists_reads_held shallow
  have notTag : name ≠ "op" := by
    rintro rfl
    exact notField _ ((operation.mem_parts_op).mpr rfl) isNamed
  have notKey : name ≠ "key" := by
    rintro rfl
    cases operation with
    | put key value => exact notField ("key", key) (by simp [parts]) isNamed
    | delete key => exact notField ("key", key) (by simp [parts]) isNamed
  have notValue : ¬ (name = "value" ∧ operation.kind = .put) := by
    rintro ⟨rfl, isPut⟩
    cases operation with
    | put key value => exact notField ("value", value) (by simp [parts]) isNamed
    | delete key => cases isPut
  refine ⟨_, takes_held isNamed notTag kept, holds.held (fun _ => Iff.rfl) fun operands of => ?_⟩
  exact ⟨operands, Operands.takeFields_other notKey notValue shape, of⟩

end

/-- The members of an operation are taken, whatever their order. -/
theorem Holds.exists_takesAll {operation : Operation} {members : List Member}
    {entries : List (Option (String × String))}
    (gives : List.Forall₂ (operation.Gives .meaning) members entries)
    (areFields : ∀ field ∈ entries.reduceOption, field ∈ operation.parts)
    {fields : Fields} {met : List (String × String)} (holds : operation.Holds fields met)
    (distinct : ((entries.reduceOption ++ met).map Prod.fst).Nodup) :
    ∃ final, TakesAll (Fields.readField membersDepth) fields members final ∧
      operation.Holds final (entries.reduceOption.reverse ++ met) := by
  -- `met` grows by each field that is taken; the names still to come stay apart from it.
  induction gives generalizing fields met with
  | nil => exact ⟨fields, .nil, holds⟩
  | @cons member entry members entries isGiven _ ih =>
      cases entry with
      | none =>
          rw [List.reduceOption_cons_of_none] at areFields distinct ⊢
          obtain ⟨next, takes, holdsNext⟩ := holds.exists_takes_other isGiven
          obtain ⟨final, takesAll, holdsFinal⟩ := ih areFields holdsNext distinct
          exact ⟨final, .cons takes takesAll, holdsFinal⟩
      | some field =>
          rw [List.reduceOption_cons_of_some] at areFields distinct ⊢
          obtain ⟨isField, moreFields⟩ := List.forall_mem_cons.mp areFields
          obtain ⟨name, value⟩ := field
          have unmet : ∀ other, (name, other) ∉ met := by
            intro other isMet
            rw [List.cons_append, List.map_cons, List.nodup_cons] at distinct
            exact distinct.1 (List.mem_map.mpr ⟨_, List.mem_append_right _ isMet, rfl⟩)
          obtain ⟨next, takes, holdsNext⟩ :=
            holds.exists_takes_field isField unmet isGiven.1 isGiven.2
          have distinctNext :
              ((entries.reduceOption ++ (name, value) :: met).map Prod.fst).Nodup :=
            ((List.perm_middle.map Prod.fst).nodup_iff).mpr distinct
          obtain ⟨final, takesAll, holdsFinal⟩ := ih moreFields holdsNext distinctNext
          refine ⟨final, .cons takes takesAll, ?_⟩
          rwa [List.reverse_cons, List.append_assoc, List.singleton_append]

/-- When all fields of an operation were met, the operation is known. -/
theorem Holds.operation_eq {operation : Operation} {fields : Fields}
    {met : List (String × String)} (holds : operation.Holds fields met)
    (all : ∀ field, field ∈ met ↔ field ∈ operation.parts) :
    fields.operation = .ok operation := by
  have tag : fields.kind = some operation.kind :=
    (holds.kind _).mpr ((all _).mpr ((operation.mem_parts_op).mpr rfl))
  obtain ⟨operands, taken, of⟩ := holds.operands
  rw [Fields.operation, tag]
  change (Operands.empty.takeFields operation.kind fields.others.reverse).bind _ = _
  rw [taken]
  cases operation with
  | put key value =>
      have isKey : operands.key = some key :=
        (of.key _).mpr ((all _).mpr (by simp [Operation.parts]))
      have isValue : operands.value = some value :=
        (of.value _).mpr ((all _).mpr (by simp [Operation.parts]))
      change operands.operation .put = _
      rw [Operands.operation, isKey, isValue]
  | delete key =>
      have isKey : operands.key = some key :=
        (of.key _).mpr ((all _).mpr (by simp [Operation.parts]))
      change operands.operation .delete = _
      rw [Operands.operation, isKey]

theorem nodup_names (operation : Operation) : (operation.parts.map Prod.fst).Nodup := by
  cases operation <;> simp [parts]

/-! ## Operations -/

/-- The record form of an operation is read as the operation. -/
theorem read_of_recordGiving {operation : Operation} {text : List Char}
    (recordGiving : RecordGiving (operation.Gives .meaning) operation.parts text) :
    (read 2).Reads text operation := by
  intro rest ends
  obtain ⟨members, entries, gives, sameFields, record⟩ := recordGiving
  have distinct : ((entries.reduceOption ++ []).map Prod.fst).Nodup := by
    rw [List.append_nil, (sameFields.map Prod.fst).nodup_iff]
    exact operation.nodup_names
  obtain ⟨final, takesAll, holds⟩ :=
    Holds.exists_takesAll gives (fun field => sameFields.mem_iff.mp) operation.holds_empty distinct
  have known : final.operation = .ok operation := by
    refine holds.operation_eq fun field => ?_
    rw [List.append_nil, List.mem_reverse, sameFields.mem_iff]
  obtain ⟨inside, scanned, done⟩ := record.reads takesAll ends
  rw [scanned]
  change (readRecordForm membersDepth).run inside = _
  rw [readRecordForm, Reader.run_bind_of_ok done, known]
  rfl

theorem readListForm_of_ok {depth : Nat} {kind : Kind} {tokens middle rest : List Token}
    (tagged : Kind.read.run tokens = .ok (kind, .comma :: middle)) {held : List Shape}
    (kept : (readItems (readHeld depth) (advances_readHeld depth)).run middle = .ok (held, rest))
    {operation : Operation} (positions : ofPositions kind held = .ok operation) :
    (readListForm depth).run tokens = .ok (operation, rest) := by
  have operands : (readOperands depth).run (.comma :: middle) = .ok (held, rest) := kept
  rw [readListForm, Reader.run_bind_of_ok tagged, Reader.run_bind_of_ok operands, positions]
  rfl

/-- A list with a tag does not begin with its closing bracket. -/
theorem read_of_readListForm {depth : Nat} {tokens : List Token} {result : Operation × List Token}
    (done : (readListForm (depth + 1)).run tokens = .ok result) :
    (read depth).run (.openList :: tokens) = .ok result := by
  cases tokens with
  | nil => exact done
  | cons token tokens => cases token <;> first | exact done | cases done

/-- The operands of an operation are found in their positions. -/
theorem ofPositions_parts (operation : Operation) :
    ∃ operands, operation.parts.map Prod.snd = operation.kind.name :: operands ∧ operands ≠ [] ∧
      ofPositions operation.kind (operands.map Shape.text) = .ok operation := by
  cases operation with
  | put key value => exact ⟨[key, value], rfl, List.cons_ne_nil _ _, rfl⟩
  | delete key => exact ⟨[key], rfl, List.cons_ne_nil _ _, rfl⟩

/-- The list form of an operation is read as the operation. -/
theorem read_of_listOf {operation : Operation} {text : List Char}
    (list : ListOf Says (operation.parts.map Prod.snd) text) :
    (read 2).Reads text operation := by
  intro rest ends
  obtain ⟨operands, values, some_operand, positions⟩ := operation.ofPositions_parts
  rw [values] at list
  obtain ⟨_, _ | @⟨_, tag, _, texts, isTag, spelled⟩, enclosed⟩ := list
  obtain ⟨inside, behind, separated, scanned, same⟩ := Bracket.list.exists_scan enclosed ends
  obtain ⟨first, more, rfl⟩ := List.exists_cons_of_ne_nil
    (show texts ≠ [] by rintro rfl; cases spelled; exact some_operand rfl)
  have kept : List.Forall₂ (fun shape text => (readHeld membersDepth).Reads text shape)
      (operands.map Shape.text) (first :: more) := by
    rw [List.forall₂_map_left_iff]
    exact spelled.imp fun _ _ spelled => spelled.reads_held membersDepth
  have tagged := Kind.reads isTag _
    (endsNumber_comma (List.intercalate [','] (first :: more) ++ ']' :: behind))
  rw [scan_comma] at tagged
  rw [scanned, ← same]
  refine read_of_readListForm ?_
  rw [separated.eq_intercalate, intercalate_comma_append]
  exact readListForm_of_ok tagged (readItems_reads (List.cons_ne_nil _ _) kept behind) positions

theorem Spelled.reads {operation : Operation} {text : List Char}
    (spelled : operation.Spelled .meaning text) : (read 2).Reads text operation :=
  spelled.elim read_of_recordGiving read_of_listOf

/-! ## Files -/

/-- A list of operations is read as the operations, in their order. -/
theorem readAll_reads {operations : List Operation} {text : List Char}
    (list : ListOf (Spelled .meaning) operations text) : readAll.Reads text operations := by
  intro rest ends
  obtain ⟨texts, spelled, enclosed⟩ := list
  have each : ListOf (fun operation text => (read 2).Reads text operation) operations text :=
    ⟨texts, spelled.imp fun _ _ spelled => spelled.reads, enclosed⟩
  obtain ⟨inside, scanned, done⟩ := each.reads (fun _ _ => nofun) ends
  rw [scanned]
  exact done

theorem takes_ops {member : Member} (isNamed : member.IsNamed "ops") {operations : List Operation}
    (list : ListOf (Spelled .meaning) operations member.value) :
    Takes readFileField none member (some operations) := by
  refine ⟨"ops", isNamed, ?_⟩
  rw [readFileField, if_pos rfl]
  exact ((readAll_reads list).bind_pure _).behind_colon

/-- Other members of a file are passed over. -/
theorem takesAll_others {members : List Member}
    (others : ∀ member ∈ members, Demands.meaning.text member.name ∧ ¬ member.IsNamed "ops" ∧
      ∃ nested, Json.Value .grammar nested member.value) (state : Option (List Operation)) :
    TakesAll readFileField state members state := by
  induction members with
  | nil => exact .nil
  | cons member members ih =>
      obtain ⟨⟨meant, notOps, nested, value⟩, others⟩ := List.forall_mem_cons.mp others
      obtain ⟨name, isNamed⟩ := Member.exists_isNamed meant
      have differs : name ≠ "ops" := by
        rintro rfl
        exact notOps isNamed
      refine .cons ⟨name, isNamed, ?_⟩ (ih others)
      rw [readFileField, if_neg differs]
      exact (value.reads_passed.bind_pure fun _ => state).behind_colon

/-- A list with an item is no empty list. -/
theorem readFile_of_readFileList {tokens : List Token} {result : List Operation × List Token}
    (done : readFileList.run tokens = .ok result) :
    readFile.run (.openList :: tokens) = .ok result := by
  cases tokens with
  | nil => exact done
  | cons token tokens => cases token <;> first | exact done | cases done

/-- A batch file is read as its operations. -/
theorem readFile_reads {operations : List Operation} {text : List Char}
    (file : FileOf .meaning operations text) : readFile.Reads text operations := by
  intro rest ends
  obtain ⟨before, ops, after, isNamed, list, others, record⟩ | ⟨item, list, enclosed⟩ := file
  · obtain ⟨othersBefore, othersAfter⟩ := List.forall_mem_append.mp others
    have takesAll : TakesAll readFileField none (before ++ ops :: after) (some operations) :=
      (takesAll_others othersBefore none).append
        (.cons (takes_ops isNamed list) (takesAll_others othersAfter _))
    obtain ⟨inside, scanned, done⟩ := record.reads takesAll ends
    rw [scanned]
    change readFileRecord.run inside = _
    rw [readFileRecord, Reader.run_bind_of_ok done]
    rfl
  · obtain ⟨inside, behind, separated, scanned, same⟩ := Bracket.list.exists_scan enclosed ends
    have done := readAll_reads list _ (Bracket.endsNumber_closing .list behind)
    rw [Bracket.scan_closing .list] at done
    rw [scanned, ← same]
    refine readFile_of_readFileList ?_
    rw [separated.eq_intercalate, List.intercalate_singleton, readFileList,
      Reader.run_bind_of_ok done]
    exact Reader.run_bind_of_ok (readMark_self .closeList _)

/-- A batch file is read as its operations in their order, however each of them is
spelled, and whatever stands beside them under other names.  Of the names of such
members it is asked that no surrogate is alone. -/
theorem ofJson_eq_ok_of_fileOf {operations : List Operation} {text : String}
    (file : FileOf .meaning operations text.toList) :
    ofJson text = .ok operations ∧
      ∀ (files : Files) (path : String), files.readText path = .ok text →
        load files path = .ok operations := by
  have isRead : ofJson text = .ok operations := (readFile_reads file).document
  exact ⟨isRead, fun files path found => Files.load_eq_ok_iff.mpr ⟨text, found, isRead⟩⟩

/-- A put as a list, and a delete as a record with its tag at the end and with fields
that only a put asks for. -/
theorem ofJson_eq_ok_of_fileOf_mixed :
    FileOf .meaning [.put "a" "b", .delete "a"] ("\x7b\"v\":1,\"ops\":[[\"put\",\"a\",\"b\"]," ++
        "\x7b\"value\":1,\"key\":\"a\",\"value\":1,\"op\":\"delete\"\x7d]\x7d").toList ∧
      ofJson ("\x7b\"v\":1,\"ops\":[[\"put\",\"a\",\"b\"]," ++
          "\x7b\"value\":1,\"key\":\"a\",\"value\":1,\"op\":\"delete\"\x7d]\x7d") =
        .ok [.put "a" "b", .delete "a"] := by
  have put : Spelled .meaning (.put "a" "b") "[\"put\",\"a\",\"b\"]".toList :=
    .inr ⟨["\"put\"".toList, "\"a\"".toList, "\"b\"".toList],
      .cons (.of_plain rfl) (.cons (.of_plain rfl) (.cons (.of_plain rfl)
        .nil)), _, rfl, .refl _⟩
  have value : (Operation.delete "a").Gives .meaning ⟨"value".toList.map .char, ['1']⟩ none := by
    refine ⟨⟨_, .of_chars _⟩, ?_, 0, by decide, .of_whole (.of_digit rfl) rfl⟩
    simp only [parts, List.forall_mem_cons]
    exact ⟨Member.not_isNamed_of_ne (by decide), Member.not_isNamed_of_ne (by decide), by simp⟩
  have key : (Operation.delete "a").Gives .meaning ⟨"key".toList.map .char, "\"a\"".toList⟩
      (some ("key", "a")) :=
    ⟨.of_chars _, .of_plain rfl⟩
  have tag : (Operation.delete "a").Gives .meaning ⟨"op".toList.map .char, "\"delete\"".toList⟩
      (some ("op", "delete")) :=
    ⟨.of_chars _, .of_plain rfl⟩
  have delete : Spelled .meaning (.delete "a")
      "\x7b\"value\":1,\"key\":\"a\",\"value\":1,\"op\":\"delete\"\x7d".toList :=
    .inl ⟨_, _, .cons value (.cons key (.cons value (.cons tag .nil))), .swap _ _ _,
      ["\"value\":1".toList, "\"key\":\"a\"".toList, "\"value\":1".toList,
        "\"op\":\"delete\"".toList],
      .cons ⟨_, .of_plain rfl, rfl⟩ (.cons ⟨_, .of_plain rfl, rfl⟩
        (.cons ⟨_, .of_plain rfl, rfl⟩ (.cons ⟨_, .of_plain rfl, rfl⟩ .nil))),
      _, rfl, .refl _⟩
  have file : FileOf .meaning [.put "a" "b", .delete "a"]
      ("\x7b\"v\":1,\"ops\":[[\"put\",\"a\",\"b\"]," ++
        "\x7b\"value\":1,\"key\":\"a\",\"value\":1,\"op\":\"delete\"\x7d]\x7d").toList := by
    refine .inl ⟨[⟨"v".toList.map .char, ['1']⟩], ⟨"ops".toList.map .char,
      ("[[\"put\",\"a\",\"b\"]," ++
        "\x7b\"value\":1,\"key\":\"a\",\"value\":1,\"op\":\"delete\"\x7d]").toList⟩, [],
      .of_chars _, ⟨_, .cons put (.cons delete .nil), _, rfl, .refl _⟩, ?_, ?_⟩
    · exact List.forall_mem_singleton.mpr
        ⟨⟨_, .of_chars _⟩, Member.not_isNamed_of_ne (by decide), 0,
          .of_whole (.of_digit rfl) trivial⟩
    · exact ⟨_, .cons ⟨_, .of_plain rfl, rfl⟩ (.cons ⟨_, .of_plain rfl, rfl⟩ .nil),
        _, rfl, .refl _⟩
  exact ⟨file, (ofJson_eq_ok_of_fileOf file).1⟩

/-- A name is read before it is known that nobody asks for it, so a surrogate that is
alone in the name of a member is refused, in a file and in an operation. -/
theorem ofJson_refuses_unpaired_names :
    FileOf .grammar [] "\x7b\"\\ud800\":1,\"ops\":[]\x7d".toList ∧
      (ofJson "\x7b\"\\ud800\":1,\"ops\":[]\x7d").toOption = none ∧
      FileOf .grammar [.delete "a"]
        "[[\x7b\"op\":\"delete\",\"key\":\"a\",\"\\ud800\":1\x7d]]".toList ∧
      (ofJson "[[\x7b\"op\":\"delete\",\"key\":\"a\",\"\\ud800\":1\x7d]]").toOption = none := by
  have unpaired : Literal "\"\\ud800\"".toList [.unit 0xd800] := ⟨_, .numbered rfl .nil, .refl _⟩
  have nameless {name : String} : ¬ (⟨[.unit 0xd800], ['1']⟩ : Member).IsNamed name :=
    fun isNamed => absurd isNamed.meaning? (by simp [Text.meaning?, Text.isTrailing,
      Text.isLeading])
  have noOperations : FileOf .grammar [] "\x7b\"\\ud800\":1,\"ops\":[]\x7d".toList := by
    refine .inl ⟨[⟨[.unit 0xd800], ['1']⟩], ⟨"ops".toList.map .char, "[]".toList⟩, [],
      .of_chars _, ⟨[], .nil, [], by simp [Separated, Blank], .refl _⟩, ?_, ?_⟩
    · exact List.forall_mem_singleton.mpr ⟨trivial, nameless, 0, .of_whole (.of_digit rfl) trivial⟩
    · exact ⟨_, .cons ⟨_, unpaired, rfl⟩ (.cons ⟨_, .of_plain rfl, rfl⟩ .nil),
        _, rfl, .refl _⟩
  have key : (Operation.delete "a").Gives .grammar ⟨"key".toList.map .char, "\"a\"".toList⟩
      (some ("key", "a")) :=
    ⟨.of_chars _, .of_plain rfl⟩
  have tag : (Operation.delete "a").Gives .grammar ⟨"op".toList.map .char, "\"delete\"".toList⟩
      (some ("op", "delete")) :=
    ⟨.of_chars _, .of_plain rfl⟩
  have other : (Operation.delete "a").Gives .grammar ⟨[.unit 0xd800], ['1']⟩ none :=
    ⟨trivial, fun _ _ => nameless, 0, by decide, .of_whole (.of_digit rfl) rfl⟩
  have delete : Spelled .grammar (.delete "a")
      "\x7b\"op\":\"delete\",\"key\":\"a\",\"\\ud800\":1\x7d".toList :=
    .inl ⟨_, _, .cons tag (.cons key (.cons other .nil)), .refl _,
      ["\"op\":\"delete\"".toList, "\"key\":\"a\"".toList, "\"\\ud800\":1".toList],
      .cons ⟨_, .of_plain rfl, rfl⟩ (.cons ⟨_, .of_plain rfl, rfl⟩
        (.cons ⟨_, unpaired, rfl⟩ .nil)), _, rfl, .refl _⟩
  have oneOperation : FileOf .grammar [.delete "a"]
      "[[\x7b\"op\":\"delete\",\"key\":\"a\",\"\\ud800\":1\x7d]]".toList :=
    .inr ⟨"[\x7b\"op\":\"delete\",\"key\":\"a\",\"\\ud800\":1\x7d]".toList,
      ⟨_, .cons delete .nil, _, rfl, .refl _⟩, _, rfl, .refl _⟩
  exact ⟨noOperations, by decide +kernel, oneOperation, by decide +kernel⟩

end PathStore.Operation
