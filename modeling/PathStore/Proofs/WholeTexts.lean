import PathStore.Key.Json
import PathStore.Operation.Json
import PathStore.Proofs.SelfDelimiting
import PathStore.Settings.Json

/-!
# Torn and continued texts

Settings, batch files and keys are values in brackets, so their readers stop
behind a closing bracket, whatever follows.  A text that is accepted can
therefore not be continued by anything but blanks, and nothing that is cut off
before its closing bracket is accepted.
-/

namespace PathStore

open Json

namespace Json

variable {α : Type}

theorem document_eq_ok_iff {reader : Reader α} {text : List Char} {value : α} :
    document reader text = .ok value ↔ reader.run (Token.scan text) = .ok (value, []) := by
  unfold document
  split <;> simp_all

section

variable {reader : Reader α} {text : List Char} {value : α}

/-- The tokens of a text that is accepted are all whole, and the last of them is
a closing bracket. -/
theorem takes_of_document (closed : reader.Closed) (accepted : document reader text = .ok value) :
    ∃ front close, Token.scan text = front ++ [close] ∧ close.IsClosing ∧
      reader.Takes (Token.scan text) value := by
  rw [document_eq_ok_iff] at accepted
  obtain ⟨front, close, scanned, closing, taken⟩ := closed accepted
  exact ⟨front, close, scanned, closing, scanned ▸ taken⟩

/-- Behind an accepted text only blanks are accepted, and they change nothing. -/
theorem document_append_eq_ok_iff (closed : reader.Closed)
    (accepted : document reader text = .ok value) {more : List Char} {result : α} :
    document reader (text ++ more) = .ok result ↔
      (∀ c ∈ more, Token.isBlank c) ∧ result = value := by
  obtain ⟨front, close, scanned, closing, taken⟩ := takes_of_document closed accepted
  have ended : ∀ token ∈ (Token.scan text).getLast?, ¬ token.IsNumber := by
    simpa [scanned] using closing.not_isNumber
  rw [document_eq_ok_iff, Token.scan_append taken.whole ended, taken.reads,
    ← Token.scan_eq_nil_iff, Except.ok.injEq, Prod.mk.injEq, and_comm, @eq_comm _ value]

end

/-- What an accepted text tells of the texts that go on behind it, and of those
that break off before its end. -/
structure Sealed (read : String → Except ReadError α) : Prop where
  /-- Only blanks may follow, and they change nothing. -/
  continued : ∀ {text value}, read text = .ok value → ∀ more result,
    read (text ++ more) = .ok result ↔
      (∀ c ∈ more.toList, c = ' ' ∨ c = '\t' ∨ c = '\n' ∨ c = '\r') ∧ result = value
  /-- Nothing is accepted that is cut off before the closing bracket, behind
  which there are only blanks. -/
  torn : ∀ {text value}, read text = .ok value → ∃ body bracket blanks,
    text = body ++ bracket ++ blanks ∧ (bracket = "]" ∨ bracket = "\x7d") ∧
      (∀ c ∈ blanks.toList, c = ' ' ∨ c = '\t' ∨ c = '\n' ∨ c = '\r') ∧
      ∀ front back, body = front ++ back → ∀ result, read front ≠ .ok result

/-- A reader that stops behind a closing bracket seals its texts. -/
theorem sealed_document {reader : Reader α} (closed : reader.Closed) :
    Sealed fun text => document reader text.toList where
  continued {text value} accepted more result := by
    simp only [String.toList_append, document_append_eq_ok_iff closed accepted,
      Token.isBlank_iff]
  torn {text value} accepted := by
    obtain ⟨front, close, scanned, closing, -⟩ := takes_of_document closed accepted
    obtain ⟨body, bracket, blanks, same, isBracket, blank⟩ :=
      Token.exists_eq_append_of_scan scanned closing
    refine ⟨.ofList body, .singleton bracket, .ofList blanks, ?_, ?_, ?_, ?_⟩
    · rw [← String.toList_inj]
      simpa using same
    · obtain rfl | rfl := isBracket
      · exact .inl rfl
      · exact .inr rfl
    · simpa [Token.isBlank_iff] using blank
    · intro shorter back split result acceptedToo
      rw [← String.toList_inj, String.toList_append, String.toList_ofList] at split
      rw [same, split, List.append_assoc, document_append_eq_ok_iff closed acceptedToo] at accepted
      have blankBracket := accepted.1 bracket (by simp)
      obtain rfl | rfl := isBracket <;> cases blankBracket

end Json

namespace Settings

namespace Draft

theorem selfDelimiting_readValue (draft : Draft) (field : Field) :
    (draft.readValue field).SelfDelimiting := by
  cases field
  case dataDir | tree =>
    exact (selfDelimiting_readString _).bind_idle fun _ => Reader.idle_pure _
  case databaseReset | temporary =>
    exact (selfDelimiting_readBool _).bind_idle fun _ => Reader.idle_pure _

theorem selfDelimiting_readField (draft : Draft) (name : String) :
    (draft.readField name).SelfDelimiting := by
  unfold readField
  split
  · split
    · exact Reader.selfDelimiting_throw _
    · exact Reader.selfDelimiting_bind (selfDelimiting_readMark trivial) fun _ =>
        selfDelimiting_readValue draft _
  · exact Reader.selfDelimiting_bind (selfDelimiting_readMark trivial) fun _ =>
      (selfDelimiting_passValue _).bind_idle fun _ => Reader.idle_pure _

theorem closed_readFurther (draft : Draft) (fields : List Field) :
    (draft.readFurther fields).Closed := by
  induction fields generalizing draft with
  | nil => exact (closed_readMark .closeList trivial).bind_idle fun _ => Reader.idle_pure _
  | cons field fields ih =>
      intro tokens result rest done
      simp only [StateT.run] at done
      unfold readFurther at done
      split at done
      · cases done
      · cases done
        exact Reader.closed_at_bracket trivial fun _ => rfl
      · exact (Reader.closed_bind (selfDelimiting_readValue draft field) fun _ => ih _).opened done
          trivial fun _ _ done => done
      · cases done

theorem closed_readPositions : readPositions.Closed := by
  intro tokens result rest done
  simp only [StateT.run] at done
  unfold readPositions at done
  split at done
  · cases done
    exact Reader.closed_at_bracket trivial fun _ => rfl
  · have closed := Reader.closed_bind (selfDelimiting_readValue empty .dataDir) fun draft =>
      closed_readFurther draft [.tree, .databaseReset, .temporary]
    obtain ⟨front, close, rfl, closing, taken⟩ := closed done
    refine ⟨front, close, rfl, closing, taken.whole, fun more => ?_⟩
    have reads := taken.reads more
    simp only [StateT.run] at reads ⊢
    unfold readPositions
    split
    · rename_i begins
      rw [begins] at reads
      cases reads
    · exact reads

end Draft

theorem closed_read : read.Closed := by
  intro tokens settings rest done
  simp only [StateT.run] at done
  unfold read at done
  split at done
  · cases done
  · refine Reader.Closed.opened ?_ done trivial fun _ _ done => done
    exact (closed_readRecord Draft.selfDelimiting_readField).map Draft.complete
  · refine Reader.Closed.opened ?_ done trivial fun _ _ done => done
    exact Draft.closed_readPositions.map Draft.complete
  · cases done

end Settings

namespace Key

theorem closed_read : read.Closed := by
  intro tokens key rest done
  simp only [StateT.run] at done
  unfold read at done
  split at done
  · cases done
  · refine Reader.Closed.opened ?_ done trivial fun _ _ done => done
    exact (closed_readList selfDelimiting_readByte).map mk
  · cases done

end Key

namespace Operation

theorem Kind.selfDelimiting_read : Kind.read.SelfDelimiting :=
  (selfDelimiting_readString _).bind_idle fun name => Reader.idle_lift (Kind.ofName name)

theorem Fields.selfDelimiting_readField (depth : Nat) (fields : Fields) (name : String) :
    (Fields.readField depth fields name).SelfDelimiting := by
  unfold Fields.readField
  split
  · split
    · exact Reader.selfDelimiting_throw _
    · exact Reader.selfDelimiting_bind (selfDelimiting_readMark trivial) fun _ =>
        Kind.selfDelimiting_read.bind_idle fun _ => Reader.idle_pure _
  · exact Reader.selfDelimiting_bind (selfDelimiting_readMark trivial) fun _ =>
      (selfDelimiting_readHeld depth).bind_idle fun _ => Reader.idle_pure _

theorem closed_readRecordForm (depth : Nat) : (readRecordForm depth).Closed :=
  (closed_readRecord (Fields.selfDelimiting_readField depth)).bind_idle fun fields =>
    Reader.idle_lift fields.operation

theorem closed_readOperands (depth : Nat) : (readOperands depth).Closed := by
  intro tokens held rest done
  simp only [StateT.run] at done
  unfold readOperands at done
  split at done
  · cases done
  · cases done
    exact Reader.closed_at_bracket trivial fun _ => rfl
  · exact (closed_readItems (selfDelimiting_readHeld depth)).opened done trivial
      fun _ _ done => done
  · cases done

theorem closed_readListForm (depth : Nat) : (readListForm depth).Closed :=
  Reader.closed_bind Kind.selfDelimiting_read fun kind =>
    (closed_readOperands depth).bind_idle fun held => Reader.idle_lift (ofPositions kind held)

theorem closed_read (depth : Nat) : (read depth).Closed := by
  intro tokens operation rest done
  simp only [StateT.run] at done
  unfold read at done
  split at done
  · cases done
  · exact (closed_readRecordForm (depth + 1)).opened done trivial fun _ _ done => done
  · cases done
  · refine (closed_readListForm (depth + 1)).opened done trivial ?_
    intro tokens result done
    cases tokens with
    | nil => cases done
    | cons token tokens =>
        -- a list that ends at once is told apart, but its first element is missed anyway
        cases token
        case closeList => cases done
        all_goals exact done
  · cases done

theorem closed_readAll : readAll.Closed := by
  intro tokens operations rest done
  simp only [StateT.run] at done
  unfold readAll at done
  split at done
  · cases done
  · exact (closed_readList (closed_read 2).selfDelimiting).opened done trivial
      fun _ _ done => done
  · cases done

theorem selfDelimiting_readFileField (operations : Option (List Operation)) (name : String) :
    (readFileField operations name).SelfDelimiting := by
  unfold readFileField
  split
  · split
    · exact Reader.selfDelimiting_throw _
    · exact Reader.selfDelimiting_bind (selfDelimiting_readMark trivial) fun _ =>
        closed_readAll.selfDelimiting.bind_idle fun _ => Reader.idle_pure _
  · exact Reader.selfDelimiting_bind (selfDelimiting_readMark trivial) fun _ =>
      (selfDelimiting_passValue _).bind_idle fun _ => Reader.idle_pure _

theorem closed_readFileRecord : readFileRecord.Closed :=
  (closed_readRecord selfDelimiting_readFileField).bind_idle fun operations =>
    Reader.idle_lift (ofFileFields operations)

theorem closed_readFileList : readFileList.Closed :=
  Reader.closed_bind closed_readAll.selfDelimiting fun _ =>
    (closed_readMark .closeList trivial).bind_idle fun _ => Reader.idle_pure _

theorem closed_readFile : readFile.Closed := by
  intro tokens operations rest done
  simp only [StateT.run] at done
  unfold readFile at done
  split at done
  · cases done
  · exact closed_readFileRecord.opened done trivial fun _ _ done => done
  · cases done
  · refine closed_readFileList.opened done trivial ?_
    intro tokens result done
    cases tokens with
    | nil => cases done
    | cons token tokens =>
        -- a list that ends at once is told apart, but its first element is missed anyway
        cases token
        case closeList => cases done
        all_goals exact done
  · cases done

end Operation

/-! ## The three kinds of text -/

/-- Settings, batch files and keys that were torn or run together with something
else are never taken for whole ones. -/
theorem accepted_texts_sealed :
    Json.Sealed Settings.ofJson ∧ Json.Sealed Operation.ofJson ∧ Json.Sealed Key.ofJson :=
  ⟨Json.sealed_document Settings.closed_read, Json.sealed_document Operation.closed_readFile,
    Json.sealed_document Key.closed_read⟩

/-- Texts of the three kinds that are accepted, and all that is accepted in place
of them when something is written behind them. -/
theorem accepted_texts_sealed_instances :
    (∀ more result, Settings.ofJson ("\x7b\x7d" ++ more) = .ok result ↔
      (∀ c ∈ more.toList, c = ' ' ∨ c = '\t' ∨ c = '\n' ∨ c = '\r') ∧
        result = Settings.default) ∧
    (∀ more result,
      Operation.ofJson
          ("\x7b\"ops\":[\x7b\"key\":\"0a\",\"op\":\"delete\"\x7d]\x7d" ++ more) = .ok result ↔
        (∀ c ∈ more.toList, c = ' ' ∨ c = '\t' ∨ c = '\n' ∨ c = '\r') ∧
          result = [.delete "0a"]) ∧
    ∀ more result, Key.ofJson ("[7, 255]" ++ more) = .ok result ↔
      (∀ c ∈ more.toList, c = ' ' ∨ c = '\t' ∨ c = '\n' ∨ c = '\r') ∧ result = ⟨[7, 255]⟩ :=
  ⟨accepted_texts_sealed.1.continued (by decide +kernel),
    accepted_texts_sealed.2.1.continued (by decide +kernel),
    accepted_texts_sealed.2.2.continued (by decide +kernel)⟩

end PathStore
