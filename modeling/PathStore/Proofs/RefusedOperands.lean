import PathStore.Proofs.Applying
import PathStore.Proofs.Replay

/-!
# The operand that a batch file is refused for

The operands of a file have an order: that of its operations, and within a put
the key before the value.  A file is staged if all of them are hexadecimal text.
Otherwise it is refused for the first that is not, under the place of its
operation in the file and the name of its field.  So neither what follows in the
file nor the store has a part in the refusal.
-/

namespace PathStore

universe u v

/-- The text spells bytes. -/
def Hex.IsText (text : String) : Prop :=
  ∃ bytes, Hex.decode text = .ok bytes

theorem Hex.operand_eq_error_iff {role text : String} {error : OperandError} :
    Hex.operand role text = .error error ↔
      ∃ cause, Hex.decode text = .error cause ∧ error = ⟨role, text, cause⟩ := by
  rw [Hex.operand]
  cases Hex.decode text with
  | ok bytes => simp
  | error cause => simp [eq_comm]

namespace Operation

/-- The operands of an operation, each under the name of its field, in the order
in which they are read. -/
def fields : Operation → List (String × String)
  | put key value => [("key", key), ("value", value)]
  | delete key => [("key", key)]

/-- An operation spells a write exactly if its operands are hexadecimal text. -/
theorem exists_spells_iff {operation : Operation} :
    (∃ write, operation.Spells write) ↔ ∀ field ∈ operation.fields, Hex.IsText field.2 := by
  constructor
  · rintro ⟨write, spelled⟩
    cases spelled with
    | put isKey isValue => simp [fields, Hex.IsText, isKey, isValue]
    | delete isKey => simp [fields, Hex.IsText, isKey]
  · intro texts
    cases operation with
    | put keyText valueText =>
        obtain ⟨key, isKey⟩ := texts ("key", keyText) (by simp [fields])
        obtain ⟨value, isValue⟩ := texts ("value", valueText) (by simp [fields])
        exact ⟨_, .put isKey isValue⟩
    | delete keyText =>
        obtain ⟨key, isKey⟩ := texts ("key", keyText) (by simp [fields])
        exact ⟨_, .delete isKey⟩

/-- The operation is refused for its field `name`: the operand there is no
hexadecimal text, and those before it are. -/
structure RefusedFor (operation : Operation) (name text : String) (cause : HexError) : Prop where
  first : ∃ before after, operation.fields = before ++ (name, text) :: after ∧
    ∀ field ∈ before, Hex.IsText field.2
  noText : Hex.decode text = .error cause

/-- An operation is refused for the first of its operands that is no hexadecimal
text. -/
theorem decode_eq_error_iff {index : Nat} {operation : Operation} {error : OperandError} :
    decode index operation = .error error ↔
      ∃ name text cause, operation.RefusedFor name text cause ∧
        error = ⟨role index name, text, cause⟩ := by
  constructor
  · intro refused
    cases operation with
    | put keyText valueText =>
        rcases bind_eq_error_iff.mp refused with noKey | ⟨key, isKey, more⟩
        · obtain ⟨cause, noText, rfl⟩ := Hex.operand_eq_error_iff.mp noKey
          exact ⟨"key", keyText, cause, ⟨⟨[], _, rfl, by simp⟩, noText⟩, rfl⟩
        · rcases bind_eq_error_iff.mp more with noValue | ⟨value, _, done⟩
          · obtain ⟨cause, noText, rfl⟩ := Hex.operand_eq_error_iff.mp noValue
            have isText : Hex.IsText keyText := ⟨key, Hex.operand_eq_ok_iff.mp isKey⟩
            exact ⟨"value", valueText, cause,
              ⟨⟨[("key", keyText)], [], rfl, by simpa using isText⟩, noText⟩, rfl⟩
          · cases done
    | delete keyText =>
        rcases bind_eq_error_iff.mp refused with noKey | ⟨key, _, done⟩
        · obtain ⟨cause, noText, rfl⟩ := Hex.operand_eq_error_iff.mp noKey
          exact ⟨"key", keyText, cause, ⟨⟨[], _, rfl, by simp⟩, noText⟩, rfl⟩
        · cases done
  · rintro ⟨name, text, cause, ⟨⟨before, after, fields_eq, texts⟩, noText⟩, rfl⟩
    have noOperand : Hex.operand (role index name) text =
        .error ⟨role index name, text, cause⟩ :=
      Hex.operand_eq_error_iff.mpr ⟨cause, noText, rfl⟩
    cases operation with
    | put keyText valueText =>
        rcases before with _ | ⟨first, _ | ⟨second, rest⟩⟩
        · cases fields_eq
          exact bind_eq_error_iff.mpr (.inl noOperand)
        · cases fields_eq
          obtain ⟨key, isKey⟩ := texts ("key", keyText) List.mem_cons_self
          exact bind_eq_error_iff.mpr (.inr ⟨key, Hex.operand_eq_ok_iff.mpr isKey,
            bind_eq_error_iff.mpr (.inl noOperand)⟩)
        · simp [fields] at fields_eq
    | delete keyText =>
        rcases before with _ | ⟨first, rest⟩
        · cases fields_eq
          exact bind_eq_error_iff.mpr (.inl noOperand)
        · simp [fields] at fields_eq

/-- Operations are refused for the first one that is, under its place. -/
theorem decodeFrom_eq_error_iff {index : Nat} {operations : List Operation}
    {error : OperandError} :
    decodeFrom index operations = .error error ↔
      ∃ earlier operation later name text cause,
        operations = earlier ++ operation :: later ∧
        (∀ other ∈ earlier, ∃ write, other.Spells write) ∧
        operation.RefusedFor name text cause ∧
        error = ⟨role (index + earlier.length) name, text, cause⟩ := by
  induction operations generalizing index error with
  | nil => simp [decodeFrom]
  | cons first rest ih =>
      rw [decodeFrom, bind_eq_error_iff]
      constructor
      · rintro (refused | ⟨write, isFirst, more⟩)
        · obtain ⟨name, text, cause, refusedFor, rfl⟩ := decode_eq_error_iff.mp refused
          exact ⟨[], first, rest, name, text, cause, rfl, by simp, refusedFor, rfl⟩
        · rcases bind_eq_error_iff.mp more with refused | ⟨_, _, done⟩
          · obtain ⟨earlier, operation, later, name, text, cause, rfl, spelled, refusedFor, rfl⟩ :=
              ih.mp refused
            have place : index + 1 + earlier.length = index + (first :: earlier).length := by
              rw [List.length_cons, Nat.add_right_comm, Nat.add_assoc]
            rw [place]
            exact ⟨first :: earlier, operation, later, name, text, cause, rfl,
              List.forall_mem_cons.mpr ⟨⟨write, decode_eq_ok_iff.mp isFirst⟩, spelled⟩,
              refusedFor, rfl⟩
          · cases done
      · rintro ⟨earlier, operation, later, name, text, cause, parts, spelled, refusedFor, rfl⟩
        cases earlier with
        | nil =>
            cases parts
            exact .inl (decode_eq_error_iff.mpr ⟨name, text, cause, refusedFor, rfl⟩)
        | cons other earlier =>
            cases parts
            obtain ⟨⟨write, isFirst⟩, spelled⟩ := List.forall_mem_cons.mp spelled
            have place : index + (first :: earlier).length = index + 1 + earlier.length := by
              rw [List.length_cons, Nat.add_right_comm, Nat.add_assoc]
            have refused : decodeFrom (index + 1) (earlier ++ operation :: later) =
                .error ⟨role (index + 1 + earlier.length) name, text, cause⟩ :=
              ih.mpr ⟨earlier, operation, later, name, text, cause, rfl, spelled, refusedFor, rfl⟩
            rw [place]
            exact .inr ⟨write, decode_eq_ok_iff.mpr isFirst,
              bind_eq_error_iff.mpr (.inl refused)⟩

/-- Operations are refused exactly if one of their operands is no hexadecimal
text. -/
theorem exists_decodeAll_eq_error_iff {operations : List Operation} :
    (∃ error, decodeAll operations = .error error) ↔
      ∃ operation ∈ operations, ∃ field ∈ operation.fields,
        ∃ cause, Hex.decode field.2 = .error cause := by
  constructor
  · rintro ⟨error, refused⟩
    obtain ⟨earlier, operation, later, name, text, cause, rfl, _, refusedFor, _⟩ :=
      decodeFrom_eq_error_iff.mp refused
    obtain ⟨⟨before, after, fields_eq, _⟩, noText⟩ := refusedFor
    have isField : (name, text) ∈ operation.fields :=
      fields_eq ▸ List.mem_append_right _ List.mem_cons_self
    exact ⟨operation, List.mem_append_right _ List.mem_cons_self, (name, text), isField, cause,
      noText⟩
  · rintro ⟨operation, listed, field, isField, cause, noText⟩
    apply exists_decodeAll_eq_error listed
    intro write spelled
    obtain ⟨bytes, isText⟩ := exists_spells_iff.mp ⟨write, spelled⟩ field isField
    rw [noText] at isText
    cases isText

end Operation

/-- An idle overlay turns a file down for an operand exactly if its operations do
not decode. -/
theorem Overlay.result_apply_eq_operand_iff {σ : Type u} [Backend σ] (order : FlushOrder)
    (below : Stack σ) {operations : List Operation} (dryRun : Bool) (counters : Counters)
    {error : OperandError} :
    ((idle below).apply order operations dryRun counters).result = .error (.operand error) ↔
      Operation.decodeAll operations = .error error := by
  cases decoded : Operation.decodeAll operations with
  | error other =>
      rw [apply_of_decode_error order operations dryRun counters decoded]
      simp
  | ok writes =>
      cases dryRun with
      | true =>
          rw [apply_rehearsal order operations counters decoded]
          simp
      | false =>
          rw [apply_flush order operations counters decoded]
          split <;> simp

/-- An idle overlay turns a file down before anything is flushed exactly if one of
its operands is no hexadecimal text.  The failure names the first such operand, in
the order of the file and with the key before the value: the place of its
operation, its field, its text as it was given, and what is wrong with it.  Any
other file with the same operations up to this one is turned down alike, be it for
a rehearsal or not, by every idle overlay over every store. -/
theorem apply_refuses_first_operand {σ : Type u} [Backend σ] (order : FlushOrder)
    (below : Stack σ) (operations : List Operation) (dryRun : Bool) (counters : Counters) :
    let result := ((Overlay.idle below).apply order operations dryRun counters).result
    ((∃ error, result = .error (.operand error)) ↔
      ∃ operation ∈ operations, ∃ field ∈ operation.fields,
        ∃ cause, Hex.decode field.2 = .error cause) ∧
    ∀ error, result = .error (.operand error) →
      ∃ earlier operation later name text cause,
        operations = earlier ++ operation :: later ∧
        (∀ other ∈ earlier, ∀ field ∈ other.fields, Hex.IsText field.2) ∧
        operation.RefusedFor name text cause ∧
        (ApplyError.operand error).failure =
          ⟨"ops[" ++ toString earlier.length ++ "]." ++ name ++ " is not valid hex: "
            ++ Text.quoted text, [cause.message]⟩ ∧
        ∀ {τ : Type v} [Backend τ] (anyOrder : FlushOrder) (store : Stack τ)
          (others : List Operation) (rehearsal : Bool) (totals : Counters),
          ((Overlay.idle store).apply anyOrder (earlier ++ operation :: others) rehearsal
            totals).result = .error (.operand error) := by
  dsimp only
  simp only [Overlay.result_apply_eq_operand_iff]
  refine ⟨Operation.exists_decodeAll_eq_error_iff, ?_⟩
  intro error refused
  obtain ⟨earlier, operation, later, name, text, cause, rfl, spelled, refusedFor, rfl⟩ :=
    Operation.decodeFrom_eq_error_iff.mp refused
  refine ⟨earlier, operation, later, name, text, cause, rfl, ?texts, refusedFor, ?wording, ?alike⟩
  case texts =>
    intro other isEarlier
    exact Operation.exists_spells_iff.mp (spelled other isEarlier)
  case wording =>
    rw [Nat.zero_add]
    rfl
  case alike =>
    intro τ _ anyOrder store others rehearsal totals
    exact Operation.decodeFrom_eq_error_iff.mpr
      ⟨earlier, operation, others, name, text, cause, rfl, spelled, refusedFor, rfl⟩

/-- Three operands of the file are no hexadecimal text; the first of them is the
value of the third operation. -/
theorem apply_refuses_first_operand_value :
    let operations : List Operation :=
      [.put "0xAB" "", .delete "aB", .put "0x0xab" "0x0g", .put "0" "é", .delete "02"]
    let overlay : Overlay MemoryStore := .idle (.base .empty)
    let error : OperandError := ⟨"ops[2].value", "0x0g", .stray ⟨'g', 1⟩⟩
    (overlay.apply .latestFirst operations true .zero).result = .error (.operand error) ∧
    (ApplyError.operand error).failure =
      ⟨"ops[2].value is not valid hex: \"0x0g\"", ["Invalid character 'g' at position 1"]⟩ ∧
    ∃ earlier operation later name text cause,
      operations = earlier ++ operation :: later ∧
      (∀ other ∈ earlier, ∀ field ∈ other.fields, Hex.IsText field.2) ∧
      operation.RefusedFor name text cause ∧
      (ApplyError.operand error).failure =
        ⟨"ops[" ++ toString earlier.length ++ "]." ++ name ++ " is not valid hex: "
          ++ Text.quoted text, [cause.message]⟩ ∧
      ∀ {τ : Type} [Backend τ] (anyOrder : FlushOrder) (store : Stack τ)
        (others : List Operation) (rehearsal : Bool) (totals : Counters),
        ((Overlay.idle store).apply anyOrder (earlier ++ operation :: others) rehearsal
          totals).result = .error (.operand error) := by
  intro operations overlay error
  have refused : (overlay.apply .latestFirst operations true .zero).result =
      .error (.operand error) := by rfl
  refine ⟨refused, by decide +kernel, ?_⟩
  exact (apply_refuses_first_operand .latestFirst (.base MemoryStore.empty) operations true
    .zero).2 error refused

end PathStore
