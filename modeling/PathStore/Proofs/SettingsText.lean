import PathStore.Proofs.ReadingSteps
import PathStore.Proofs.WrittenStrings
import PathStore.Settings.Json

/-!
# Settings are read as they were written

A record is read field by field: `readFields` goes on behind a comma and ends at
the closing bracket, so what one field does to the state is all there is to know
of it.  A written field gives the draft that field of the settings, and the four
of them together give the settings.
-/

namespace PathStore

namespace Json

/-! ## Values of one token -/

theorem readKey_of_spells {token : Token} {name : String} (spells : token.Spells name)
    (rest : List Token) : readKey.run (token :: rest) = .ok (name, rest) := by
  obtain ⟨pieces, rfl, meant⟩ := spells
  exact readToken_of_ok (by simp only [meant]) rest

theorem readString_of_spells (expected : String) {token : Token} {value : String}
    (spells : token.Spells value) (rest : List Token) :
    (readString expected).run (token :: rest) = .ok (value, rest) := by
  obtain ⟨pieces, rfl, meant⟩ := spells
  exact readToken_of_ok (by simp only [meant]) rest

theorem readBool_bool (expected : String) (value : Bool) (rest : List Token) :
    (readBool expected).run (.bool value :: rest) = .ok (value, rest) :=
  rfl

end Json

namespace Settings

open Json

/-- A written truth value is scanned as one token. -/
theorem scan_writeBool (value : Bool) (rest : List Char) :
    Token.scan (writeBool value ++ rest) = .bool value :: Token.scan rest := by
  cases value
  · rw [writeBool, List.cons_append, Token.scan]
    rfl
  · rw [writeBool, List.cons_append, Token.scan]
    rfl

/-- The value of a field as it is written. -/
def writeValue (settings : Settings) : Field → List Char
  | .dataDir => Text.quote settings.dataDir
  | .tree => Text.quote settings.tree
  | .databaseReset => writeBool settings.databaseReset
  | .temporary => writeBool settings.temporary

theorem writeField_eq (settings : Settings) (field : Field) :
    settings.writeField field = Text.quote field.name ++ ':' :: settings.writeValue field := by
  cases field <;> rfl

namespace Draft

/-- The draft with a field of the settings. -/
def take (settings : Settings) (draft : Draft) : Field → Draft
  | .dataDir => { draft with dataDir := some settings.dataDir }
  | .tree => { draft with tree := some settings.tree }
  | .databaseReset => { draft with databaseReset := some settings.databaseReset }
  | .temporary => { draft with temporary := some settings.temporary }

theorem gives_take (settings : Settings) (draft : Draft) (taken other : Field) :
    (draft.take settings taken).gives other = (decide (other = taken) || draft.gives other) := by
  cases taken <;> cases other <;> rfl

/-- Slots that are empty stay so when another one is filled. -/
theorem gives_take_of_not_mem (settings : Settings) {draft : Draft} {taken : Field}
    {fields : List Field} (fresh : ∀ field ∈ fields, draft.gives field = false)
    (isOther : taken ∉ fields) :
    ∀ field ∈ fields, (draft.take settings taken).gives field = false := by
  intro field isField
  rw [gives_take, fresh field isField, Bool.or_false, decide_eq_false_iff_not]
  rintro rfl
  exact isOther isField

/-- The written value of a field is read as that field of the settings. -/
theorem readValue_written (settings : Settings) (draft : Draft) (field : Field)
    (rest : List Char) :
    (draft.readValue field).run (Token.scan (settings.writeValue field ++ rest)) =
      .ok (draft.take settings field, Token.scan rest) := by
  cases field with
  | dataDir =>
      obtain ⟨token, scanned, spells⟩ := Token.scan_quote settings.dataDir rest
      rw [writeValue, scanned]
      exact Reader.run_bind_of_ok (readString_of_spells _ spells _)
  | tree =>
      obtain ⟨token, scanned, spells⟩ := Token.scan_quote settings.tree rest
      rw [writeValue, scanned]
      exact Reader.run_bind_of_ok (readString_of_spells _ spells _)
  | databaseReset =>
      rw [writeValue, scan_writeBool]
      exact Reader.run_bind_of_ok (readBool_bool _ _ _)
  | temporary =>
      rw [writeValue, scan_writeBool]
      exact Reader.run_bind_of_ok (readBool_bool _ _ _)

/-- A written field is read as that field of the settings, if it is not given
yet. -/
theorem readField_written (settings : Settings) {draft : Draft} {field : Field}
    (fresh : draft.gives field = false) (rest : List Char) :
    (readKey >>= draft.readField).run (Token.scan (settings.writeField field ++ rest)) =
      .ok (draft.take settings field, Token.scan rest) := by
  have named : Field.named? field.name = some field := by cases field <;> decide
  obtain ⟨key, scanned, spells⟩ :=
    Token.scan_quote field.name (':' :: (settings.writeValue field ++ rest))
  rw [writeField_eq, List.append_assoc, List.cons_append, scanned,
    Token.scan_mark (c := ':') rfl, Reader.run_bind_of_ok (readKey_of_spells spells _), readField,
    named]
  simp only [fresh, Bool.false_eq_true, if_false]
  rw [Reader.run_bind_of_ok (readMark_self _ _), readValue_written]

/-- Written fields are read one after the other. -/
theorem readFields_written (settings : Settings) {fields : List Field} (some_field : fields ≠ [])
    (distinct : fields.Nodup) {draft : Draft} (fresh : ∀ field ∈ fields, draft.gives field = false)
    (rest : List Char) :
    readFields readField advances_readField draft
        (Token.scan (List.intercalate [','] (fields.map settings.writeField) ++ '\x7d' :: rest)) =
      .ok (fields.foldl (take settings) draft, Token.scan rest) := by
  induction fields generalizing draft with
  | nil => exact absurd rfl some_field
  | cons field more ih =>
      rw [List.nodup_cons] at distinct
      rw [List.forall_mem_cons] at fresh
      cases more with
      | nil =>
          have done := readField_written settings fresh.1 ('\x7d' :: rest)
          rw [Token.scan_mark (c := '\x7d') rfl] at done
          rw [List.map_cons, List.map_nil, List.intercalate_singleton]
          exact readFields_of_close done
      | cons other more =>
          have done := readField_written settings fresh.1
            (',' :: (List.intercalate [','] ((other :: more).map settings.writeField) ++
              '\x7d' :: rest))
          rw [Token.scan_mark (c := ',') rfl] at done
          have ends := ih (List.cons_ne_nil _ _) distinct.2
            (gives_take_of_not_mem settings fresh.2 distinct.1)
          rw [List.map_cons, List.map_cons, List.intercalate_cons_cons, ← List.map_cons,
            List.append_assoc, List.append_assoc, List.singleton_append,
            readFields_of_comma done, ends]
          rfl

end Draft

/-- Settings are read as they were written, whatever characters their strings
hold. -/
theorem ofJson_toJson (settings : Settings) : ofJson settings.toJson = .ok settings := by
  have fresh : ∀ field ∈ Field.all, Draft.empty.gives field = false := by decide
  have fields := readRecord_of_readFields
    (Draft.readFields_written settings (by decide) (by decide) fresh [])
  have whole : read.run (Token.scan settings.toJson.toList) = .ok (settings, Token.scan []) := by
    rw [toJson, String.toList_ofList, Token.scan_mark (c := '\x7b') rfl]
    change (Draft.complete <$> readRecord Draft.readField Draft.advances_readField .empty).run
      (Token.scan _) = _
    rw [StateT.run_map]
    change Except.map _ (readRecord _ _ _ _) = _
    rw [fields]
    rfl
  rw [ofJson, document, whole, Token.scan]

example : (⟨"a\"\\\n\x01é", "", true, false⟩ : Settings).toJson =
    "\x7b\"data_dir\":\"a\\\"\\\\\\n\\u0001é\",\"tree\":\"\"," ++
      "\"database_reset\":true,\"temporary\":false\x7d" := by
  decide +kernel

end Settings

end PathStore
