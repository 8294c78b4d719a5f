import Mathlib.Data.List.Induction
import PathStore.Proofs.BatchTexts
import PathStore.Proofs.RecordTexts
import PathStore.Proofs.Results

/-!
# The texts that batches are read from

Operations are read from the texts of batch files and from no others.  Of an operation
half way there is a tag, if it was met, and what the kept fields give; each member that
was read has added one of these or was passed over, so at the end the members give the
parts of the operation, once each.
-/

namespace PathStore.Operation

open Json

/-! ## Kinds -/

theorem Kind.name_of_ofName {name : String} {kind : Kind} (isNamed : ofName name = .ok kind) :
    name = kind.name := by
  unfold ofName at isNamed
  split at isNamed
  · rename_i named
    cases isNamed
    unfold named? at named
    split_ifs at named <;> cases named <;> assumption
  · cases isNamed

theorem Kind.read_takesOnly : Kind.read.TakesOnly fun kind text => Says kind.name text := by
  intro text kind tokens done
  obtain ⟨name, middle, reached, judged⟩ := Reader.run_bind_eq_ok done
  obtain ⟨isNamed, rfl⟩ := Reader.eq_of_lift judged
  obtain rfl := name_of_ofName isNamed
  exact readString_takesOnly _ reached

/-! ## Kept fields -/

namespace Operands

/-- The parts of an operation that are known when its tag and these operands are. -/
def known (kind : Option Kind) (operands : Operands) : List (String × String) :=
  (kind.map fun kind => ("op", kind.name)).toList ++
    (operands.key.map fun key => ("key", key)).toList ++
      (operands.value.map fun value => ("value", value)).toList

variable {kind : Kind} {operands next : Operands} {name : String} {shape : Shape}

theorem eq_text_of_heldText {value : String} (held : heldText shape = .ok value) :
    shape = .text value := by
  cases shape <;> cases held
  rfl

/-- A field that is kept is one of the two operands, or it is passed over. -/
theorem takeFields_cases (taken : takeFields kind operands [(name, shape)] = .ok next) :
    (name = "key" ∧ operands.key = none ∧
      ∃ key, shape = .text key ∧ next = { operands with key := some key }) ∨
    ((name = "value" ∧ kind = .put) ∧ operands.value = none ∧
      ∃ value, shape = .text value ∧ next = { operands with value := some value }) ∨
    name ≠ "key" ∧ ¬ (name = "value" ∧ kind = .put) ∧ next = operands := by
  rw [takeFields] at taken
  split_ifs at taken with isKey met isValue met
  · obtain ⟨key, held, ⟨⟩⟩ := bind_eq_ok_iff.mp taken
    exact .inl ⟨isKey, by simpa using met, key, eq_text_of_heldText held, rfl⟩
  · obtain ⟨value, held, ⟨⟩⟩ := bind_eq_ok_iff.mp taken
    exact .inr (.inl ⟨isValue, by simpa using met, value, eq_text_of_heldText held, rfl⟩)
  · cases taken
    exact .inr (.inr ⟨isKey, isValue, rfl⟩)

theorem exists_of_takeFields_concat {kept : List (String × Shape)} {field : String × Shape}
    (taken : takeFields kind operands (kept ++ [field]) = .ok next) :
    ∃ middle, takeFields kind operands kept = .ok middle ∧
      takeFields kind middle [field] = .ok next := by
  rw [takeFields_concat] at taken
  exact bind_eq_ok_iff.mp taken

/-- Nobody asks for the value of a delete. -/
theorem value_of_takeFields_delete {kept : List (String × Shape)}
    (taken : takeFields .delete operands kept = .ok next) : next.value = operands.value := by
  induction kept using List.reverseRecOn generalizing next with
  | nil =>
      cases taken
      rfl
  | append_singleton kept field ih =>
      obtain ⟨middle, before, last⟩ := exists_of_takeFields_concat taken
      rw [← ih before]
      obtain ⟨-, -, key, -, rfl⟩ | ⟨⟨-, isPut⟩, -⟩ | ⟨-, -, rfl⟩ := takeFields_cases last
      · rfl
      · cases isPut
      · rfl

/-- A key that was not known is one more known part. -/
theorem known_key (tag : Option Kind) (noKey : operands.key = none) (key : String) :
    (("key", key) :: operands.known tag).Perm
      (({ operands with key := some key } : Operands).known tag) := by
  simp only [known, noKey, Option.map_none, Option.toList_none, List.append_nil, Option.map_some,
    Option.toList_some, List.append_assoc, List.singleton_append]
  exact List.perm_middle.symm

/-- A value that was not known is one more known part. -/
theorem known_value (tag : Option Kind) (noValue : operands.value = none) (value : String) :
    (("value", value) :: operands.known tag).Perm
      (({ operands with value := some value } : Operands).known tag) := by
  simp only [known, noValue, Option.map_none, Option.toList_none, List.append_nil,
    Option.map_some, Option.toList_some]
  exact (List.perm_append_singleton _ _).symm

/-- The parts of an operation are known when its operands are. -/
theorem known_eq_parts {operation : Operation}
    (isKnown : operands.operation kind = .ok operation)
    (noValue : kind = .delete → operands.value = none) :
    operation.kind = kind ∧ operands.known (some kind) = operation.parts := by
  unfold Operands.operation at isKnown
  split at isKnown
  · cases isKnown
  · rename_i key isKey
    cases kind with
    | delete =>
        cases isKnown
        exact ⟨rfl, by simp [known, isKey, noValue, parts, Kind.name]⟩
    | put =>
        simp only at isKnown
        split at isKnown
        · cases isKnown
        · rename_i value isValue
          cases isKnown
          exact ⟨rfl, by simp [known, isKey, isValue, parts, Kind.name]⟩

end Operands

/-! ## Records -/

/-- What stands behind a name and its colon is the tag, or it is kept. -/
def Fields.Leads (fields : Fields) (name : String) (text : List Char) (next : Fields) : Prop :=
  (name = "op" ∧ fields.kind = none ∧
    ∃ kind, next = { fields with kind := some kind } ∧ Says (Kind.name kind) text) ∨
  name ≠ "op" ∧ ∃ shape, next = { fields with others := (name, shape) :: fields.others } ∧
    HeldAs membersDepth shape text

theorem membersDepth_lt : membersDepth < Care.nestingLimit := by decide

theorem Fields.readField_takesFields : TakesFields (readField membersDepth) Leads := by
  intro fields name text next tokens done
  unfold readField at done
  split_ifs at done with isTag met
  · cases done
  · obtain ⟨blanks, rest, blank, rfl, begins⟩ :=
      (Kind.read_takesOnly.bind_pure fun kind => ({ fields with kind := some kind } : Fields))
        |>.behind_colon done
    refine ⟨blanks, rest, blank, rfl, begins.imp ?_⟩
    rintro text ⟨kind, rfl, spelled⟩
    exact .inl ⟨isTag, by simpa using met, kind, rfl, spelled⟩
  · obtain ⟨blanks, rest, blank, rfl, begins⟩ :=
      ((readHeld_takesOnly membersDepth_lt).bind_pure fun shape =>
        ({ fields with others := (name, shape) :: fields.others } : Fields)).behind_colon done
    refine ⟨blanks, rest, blank, rfl, begins.imp ?_⟩
    rintro text ⟨shape, rfl, held⟩
    exact .inr ⟨isTag, shape, rfl, held⟩

variable {operation : Operation} {fields final : Fields} {members : List Member}

/-- A member with a name that is none of the operation's is passed over. -/
theorem gives_none {member : Member} {name : String} (isNamed : member.IsNamed name)
    (notTag : name ≠ "op") (notKey : name ≠ "key")
    (notValue : ¬ (name = "value" ∧ operation.kind = .put)) {shape : Shape}
    (held : HeldAs membersDepth shape member.value) : operation.Gives .meaning member none := by
  refine ⟨⟨_, isNamed⟩, ?_, held.1⟩
  rintro ⟨other, value⟩ isField otherNamed
  obtain rfl := Member.name_unique isNamed otherNamed
  obtain ⟨rfl, -⟩ | rfl | isValue := cases_of_mem_parts isField
  · exact notTag rfl
  · exact notKey rfl
  · exact notValue isValue

/-- The members of a record give what is known at its end and was not known before. -/
theorem exists_entries {last : Operands} (led : Led Fields.Leads fields members final)
    (taken : Operands.empty.takeFields operation.kind final.others.reverse = .ok last) :
    ∃ operands entries, Operands.empty.takeFields operation.kind fields.others.reverse =
        .ok operands ∧ List.Forall₂ (operation.Gives .meaning) members entries ∧
      (entries.reduceOption ++ operands.known fields.kind).Perm (last.known final.kind) := by
  induction led with
  | nil => exact ⟨last, [], taken, .nil, .refl _⟩
  | @cons fields next final member members name isNamed leads _ ih =>
      obtain ⟨operands, entries, before, gives, known⟩ := ih taken
      obtain ⟨rfl, noKind, kind, rfl, spelled⟩ | ⟨notTag, shape, rfl, held⟩ := leads
      · refine ⟨operands, some ("op", kind.name) :: entries, before,
          .cons ⟨isNamed, spelled⟩ gives, .trans ?_ known⟩
        rw [noKind]
        exact List.perm_middle.symm
      · rw [List.reverse_cons] at before
        obtain ⟨earlier, taken, latest⟩ := Operands.exists_of_takeFields_concat before
        obtain ⟨rfl, noKey, key, rfl, rfl⟩ | ⟨⟨rfl, -⟩, noValue, value, rfl, rfl⟩ |
          ⟨notKey, notValue, rfl⟩ := Operands.takeFields_cases latest
        · refine ⟨earlier, some ("key", key) :: entries, taken,
            .cons ⟨isNamed, held.2 key rfl⟩ gives, .trans ?_ known⟩
          exact List.perm_middle.symm.trans ((Operands.known_key _ noKey key).append_left _)
        · refine ⟨earlier, some ("value", value) :: entries, taken,
            .cons ⟨isNamed, held.2 value rfl⟩ gives, .trans ?_ known⟩
          exact List.perm_middle.symm.trans ((Operands.known_value _ noValue value).append_left _)
        · refine ⟨_, none :: entries, taken,
            .cons (gives_none isNamed notTag notKey notValue held) gives, ?_⟩
          rwa [List.reduceOption_cons_of_none]

/-- A record that is read gives the parts of its operation, once each. -/
theorem recordGiving_of_led (led : Led Fields.Leads Fields.empty members final)
    (isOperation : final.operation = .ok operation) {text : List Char}
    (record : RecordOf members text) :
    RecordGiving (operation.Gives .meaning) operation.parts text := by
  unfold Fields.operation at isOperation
  split at isOperation
  · cases isOperation
  · rename_i kind tag
    obtain ⟨last, taken, isKnown⟩ := bind_eq_ok_iff.mp isOperation
    have noValue : kind = .delete → last.value = none := by
      rintro rfl
      exact Operands.value_of_takeFields_delete taken
    obtain ⟨rfl, allKnown⟩ := Operands.known_eq_parts isKnown noValue
    obtain ⟨operands, entries, before, gives, known⟩ := exists_entries led taken
    cases before
    have nothing : Operands.empty.known Fields.empty.kind = [] := rfl
    rw [tag, allKnown, nothing, List.append_nil] at known
    exact ⟨members, entries, gives, known, record⟩

/-! ## Lists -/

/-- The operands of a list are all kept as strings, in their positions. -/
theorem exists_of_ofPositions {kind : Kind} {held : List Shape}
    (isOperation : ofPositions kind held = .ok operation) :
    ∃ operands, held = operands.map Shape.text ∧
      operation.parts.map Prod.snd = kind.name :: operands := by
  unfold ofPositions at isOperation
  split at isOperation
  · cases isOperation
  · obtain ⟨key, isKey, further⟩ := bind_eq_ok_iff.mp isOperation
    obtain rfl := Operands.eq_text_of_heldText isKey
    split at further
    · cases further
      exact ⟨[key], rfl, rfl⟩
    · cases further
    · cases further
    · obtain ⟨value, isValue, last⟩ := bind_eq_ok_iff.mp further
      obtain rfl := Operands.eq_text_of_heldText isValue
      split_ifs at last with noMore
      cases last
      rw [List.isEmpty_iff] at noMore
      exact ⟨[key, value], by rw [noMore]; rfl, rfl⟩

theorem ofPositions_nil_ne_ok (kind : Kind) : ofPositions kind [] ≠ .ok operation :=
  nofun

/-- A list that is read has the tag of its operation in front, and the operands behind it. -/
theorem beginsWith_of_readListForm {text : List Char} {inside tokens : List Token}
    (scanned : Token.scan text = .openList :: inside)
    (done : (readListForm membersDepth).run inside = .ok (operation, tokens)) :
    BeginsWith (ListOf Says (operation.parts.map Prod.snd)) text tokens := by
  obtain ⟨before, rest, blank, rfl, rfl⟩ := Token.exists_of_scan_mark rfl scanned
  obtain ⟨kind, middle, tagged, further⟩ := Reader.run_bind_eq_ok done
  obtain ⟨held, left, kept, judged⟩ := Reader.run_bind_eq_ok further
  obtain ⟨isOperation, rfl⟩ := Reader.eq_of_lift judged
  simp only [StateT.run] at kept
  unfold readOperands at kept
  split at kept
  · cases kept
  · cases kept
    exact absurd isOperation (ofPositions_nil_ne_ok kind)
  · obtain ⟨tag, behind, isTag, rfl, rfl⟩ := (Kind.read_takesOnly tagged).exists_mark rfl
    obtain ⟨items, rest, some_item, areHeld, rfl, ended⟩ :=
      exists_of_readItems (readHeld_takesOnly membersDepth_lt) kept
    obtain ⟨operands, rfl, parts⟩ := exists_of_ofPositions isOperation
    have spelled : List.Forall₂ Says operands items := by
      rw [List.forall₂_map_left_iff] at areHeld
      exact areHeld.imp fun operand _ isHeld => isHeld.2 operand rfl
    obtain ⟨first, items, rfl⟩ := List.exists_cons_of_ne_nil some_item
    have separated : Separated (tag :: first :: items)
        (tag ++ ',' :: List.intercalate [','] (first :: items)) := by
      rw [Separated, List.intercalate_cons_cons, List.append_assoc, List.singleton_append]
    have begins := separated.beginsWith blank ended .list
    rw [List.append_assoc, List.cons_append] at begins
    rw [parts]
    exact begins.imp fun _ enclosed => ⟨_, .cons isTag spelled, enclosed⟩
  · cases kept

/-! ## Operations and files -/

theorem read_takesOnly : (read 2).TakesOnly (Spelled .meaning) := by
  intro text operation tokens done
  simp only [StateT.run] at done
  unfold read at done
  split at done
  · cases done
  · rename_i inside scanned
    obtain ⟨fields, middle, reached, judged⟩ := Reader.run_bind_eq_ok done
    obtain ⟨isOperation, rfl⟩ := Reader.eq_of_lift judged
    refine (beginsWith_recordOf Fields.readField_takesFields scanned reached).imp ?_
    rintro text ⟨members, led, record⟩
    exact .inl (recordGiving_of_led led isOperation record)
  · cases done
  · exact (beginsWith_of_readListForm ‹_› done).imp fun _ => .inr
  · cases done

theorem readAll_takesOnly : readAll.TakesOnly (ListOf (Spelled .meaning)) := by
  intro text operations tokens done
  simp only [StateT.run] at done
  unfold readAll at done
  split at done
  · cases done
  · exact beginsWith_listOf read_takesOnly ‹_› done
  · cases done

/-- What stands behind a name and its colon in a file is its operations, or it is passed
over. -/
def FileLeads (operations : Option (List Operation)) (name : String) (text : List Char)
    (next : Option (List Operation)) : Prop :=
  (name = "ops" ∧ operations = none ∧
    ∃ given, next = some given ∧ ListOf (Spelled .meaning) given text) ∨
  name ≠ "ops" ∧ next = operations ∧ ∃ nested, Json.Value .grammar nested text

theorem readFileField_takesFields : TakesFields readFileField FileLeads := by
  intro operations name text next tokens done
  unfold readFileField at done
  split_ifs at done with isOps met
  · cases done
  · obtain ⟨blanks, rest, blank, rfl, begins⟩ :=
      (readAll_takesOnly.bind_pure some).behind_colon done
    refine ⟨blanks, rest, blank, rfl, begins.imp ?_⟩
    rintro text ⟨given, rfl, list⟩
    exact .inl ⟨isOps, by simpa using met, given, rfl, list⟩
  · obtain ⟨blanks, rest, blank, rfl, begins⟩ :=
      (passValue_takesOnly.bind_pure fun _ => operations).behind_colon done
    refine ⟨blanks, rest, blank, rfl, begins.imp ?_⟩
    rintro text ⟨_, rfl, isValue⟩
    exact .inr ⟨isOps, rfl, isValue⟩

/-- The member is passed over in a file. -/
def IsOther (member : Member) : Prop :=
  Demands.meaning.text member.name ∧ ¬ member.IsNamed "ops" ∧
    ∃ nested, Json.Value .grammar nested member.value

theorem isOther_of_isNamed {member : Member} {name : String} (isNamed : member.IsNamed name)
    (notOps : name ≠ "ops") (isValue : ∃ nested, Json.Value .grammar nested member.value) :
    IsOther member :=
  ⟨⟨_, isNamed⟩, fun isOps => notOps (Member.name_unique isNamed isOps), isValue⟩

/-- Behind its operations a file has no others. -/
theorem others_of_led {given : List Operation} {final : Option (List Operation)}
    (led : Led FileLeads (some given) members final) :
    final = some given ∧ ∀ member ∈ members, IsOther member := by
  generalize same : some given = state at led
  induction led with
  | nil => exact ⟨rfl, List.forall_mem_nil _⟩
  | cons isNamed leads _ ih =>
      subst same
      obtain ⟨-, unmet, -⟩ | ⟨notOps, rfl, isValue⟩ := leads
      · cases unmet
      · obtain ⟨isGiven, others⟩ := ih rfl
        exact ⟨isGiven, List.forall_mem_cons.mpr
          ⟨isOther_of_isNamed isNamed notOps isValue, others⟩⟩

/-- A file that gives operations has them under one name, among members that are passed
over. -/
theorem exists_ops_of_led {given : List Operation} (led : Led FileLeads none members (some given)) :
    ∃ before ops after, members = before ++ ops :: after ∧ ops.IsNamed "ops" ∧
      ListOf (Spelled .meaning) given ops.value ∧ ∀ member ∈ before ++ after, IsOther member := by
  generalize isEmpty : none = state, isGiven : some given = final at led
  induction led with
  | nil =>
      subst isEmpty
      cases isGiven
  | @cons state next final member members name isNamed leads further ih =>
      subst isEmpty isGiven
      obtain ⟨rfl, -, operations, rfl, list⟩ | ⟨notOps, rfl, isValue⟩ := leads
      · obtain ⟨same, others⟩ := others_of_led further
        cases same
        exact ⟨[], member, members, rfl, isNamed, list, others⟩
      · obtain ⟨before, ops, after, rfl, isOps, list, others⟩ := ih rfl rfl
        exact ⟨member :: before, ops, after, rfl, isOps, list,
          List.forall_mem_cons.mpr ⟨isOther_of_isNamed isNamed notOps isValue, others⟩⟩

theorem eq_some_of_ofFileFields {given : Option (List Operation)} {operations : List Operation}
    (isGiven : ofFileFields given = .ok operations) : given = some operations := by
  cases given <;> cases isGiven
  rfl

/-- A file in the form of a list has the list of its operations alone. -/
theorem beginsWith_of_readFileList {operations : List Operation} {text : List Char}
    {inside tokens : List Token} (scanned : Token.scan text = .openList :: inside)
    (done : readFileList.run inside = .ok (operations, tokens)) :
    BeginsWith (fun text => ∃ list, ListOf (Spelled .meaning) operations list ∧
      Enclosed '[' ']' [list] text) text tokens := by
  obtain ⟨before, rest, blank, rfl, rfl⟩ := Token.exists_of_scan_mark rfl scanned
  obtain ⟨_, middle, reached, further⟩ := Reader.run_bind_eq_ok done
  obtain ⟨_, left, closed, finished⟩ := Reader.run_bind_eq_ok further
  cases finished
  obtain rfl := eq_of_readMark closed
  obtain ⟨list, rest, isList, rfl, ended⟩ := (readAll_takesOnly reached).exists_mark rfl
  have separated : Separated [list] list := (List.intercalate_singleton ..).symm
  exact (separated.beginsWith blank ended .list).imp fun _ enclosed => ⟨list, isList, enclosed⟩

theorem readFile_takesOnly : readFile.TakesOnly (FileOf .meaning) := by
  intro text operations tokens done
  simp only [StateT.run] at done
  unfold readFile at done
  split at done
  · cases done
  · rename_i inside scanned
    obtain ⟨given, middle, reached, judged⟩ := Reader.run_bind_eq_ok done
    obtain ⟨isGiven, rfl⟩ := Reader.eq_of_lift judged
    obtain rfl := eq_some_of_ofFileFields isGiven
    refine (beginsWith_recordOf readFileField_takesFields scanned reached).imp ?_
    rintro text ⟨members, led, record⟩
    obtain ⟨before, ops, after, rfl, isOps, list, others⟩ := exists_ops_of_led led
    exact .inl ⟨before, ops, after, isOps, list, others, record⟩
  · cases done
  · exact (beginsWith_of_readFileList ‹_› done).imp fun _ => .inr
  · cases done

/-- Operations are read from the texts of batch files, and from no others. -/
theorem ofJson_eq_ok_iff {operations : List Operation} {text : String} :
    ofJson text = .ok operations ↔ FileOf .meaning operations text.toList :=
  ⟨readFile_takesOnly.document, fun file => (readFile_reads file).document⟩

end PathStore.Operation
