import PathStore.Proofs.GrammarValues
import PathStore.Proofs.ReadingSteps

/-!
# Readers of grammatical texts

A reader reads a text as a value if it does so in front of anything that may follow,
and leaves just that.  A list is then read as the values of its items, and a record as
the state to which its members lead, one after the other.
-/

namespace PathStore.Json

variable {α β : Type}

/-- The text is read as the value, in front of anything. -/
def Reader.Reads (reader : Reader α) (text : List Char) (value : α) : Prop :=
  ∀ rest, EndsNumber rest → reader.run (Token.scan (text ++ rest)) = .ok (value, Token.scan rest)

namespace Reader.Reads

/-- What is computed from a value that was read is read in its place. -/
theorem bind_of_ok {reader : Reader α} {text : List Char} {value : α}
    (reads : reader.Reads text value) {next : α → Reader β} {result : β}
    (done : ∀ tokens, (next value).run tokens = .ok (result, tokens)) :
    (reader >>= next).Reads text result := by
  intro rest ends
  rw [run_bind_of_ok (reads rest ends), done]

theorem bind_pure {reader : Reader α} {text : List Char} {value : α}
    (reads : reader.Reads text value) (result : α → β) :
    (reader >>= fun value => pure (result value)).Reads text (result value) :=
  reads.bind_of_ok fun _ => rfl

/-- The colon behind a name is passed. -/
theorem behind_colon {reader : Reader α} {text : List Char} {value : α}
    (reads : reader.Reads text value) :
    (readMark .colon >>= fun _ => reader).Reads (':' :: text) value := by
  intro rest ends
  rw [List.cons_append, Token.scan_mark (c := ':') rfl, run_bind_of_ok (readMark_self _ _),
    reads rest ends]

/-- What is read in front of anything is read as a whole text. -/
theorem document {reader : Reader α} {text : List Char} {value : α}
    (reads : reader.Reads text value) : Json.document reader text = .ok value := by
  have whole := reads [] endsNumber_nil
  rw [List.append_nil] at whole
  rw [Json.document, whole, Token.scan]

end Reader.Reads

/-! ## Strings and values -/

theorem Says.reads {value : String} {text : List Char} (spelled : Says value text)
    (expected : String) : (readString expected).Reads text value := by
  obtain ⟨pieces, literal, denotes⟩ := spelled
  intro rest ends
  rw [literal.scan ends]
  exact readToken_of_ok (by simp only [denotes.string?]) _

theorem Literal.reads_key {name : String} {text : List Char} {pieces : List Piece}
    (literal : Literal text pieces) (denotes : Text.Denotes pieces name.toList) :
    readKey.Reads text name := by
  intro rest ends
  rw [literal.scan ends]
  exact readToken_of_ok (by simp only [denotes.string?]) _

/-- Every grammatical value is passed over, to any depth. -/
theorem Value.reads_passed {depth : Nat} {text : List Char} (value : Value .grammar depth text) :
    (passValue .grammar).Reads text () := by
  intro rest ends
  have passed : skipValue .grammar (Token.scan (text ++ rest)) = .ok (Token.scan rest) := by
    rw [skipValue, value.passes Demands.grammar_meets (Care.hasRoom_grammar [] depth) (.inl rfl)
      rest ends, skip]
  change passValue .grammar (Token.scan (text ++ rest)) = _
  rw [passValue, passed]

/-- A value that means something begins with a token that does. -/
theorem Value.exists_shape {depth : Nat} {text : List Char} (value : Value .meaning depth text) :
    ∃ token shape, Token.shape token = .ok shape ∧
      ∀ rest, EndsNumber rest → ∃ tail, Token.scan (text ++ rest) = token :: tail := by
  cases value with
  | word isWord spaced =>
      obtain ⟨token, isToken, scan⟩ := isWord.scan
      have meant : ∃ shape, token.shape = .ok shape := by
        obtain rfl | ⟨value, rfl⟩ := isToken <;> exact ⟨_, rfl⟩
      obtain ⟨shape, meant⟩ := meant
      refine ⟨token, shape, meant, fun rest ends => ?_⟩
      obtain ⟨behind, -, scanned, -⟩ := spaced.exists_scan ends
      exact ⟨_, scanned.trans (scan behind)⟩
  | @number _ _ _ numeral written inRange spaced =>
      obtain ⟨shape, meant⟩ := Option.isSome_iff_exists.mp inRange
      refine ⟨.number numeral, shape, by rw [Token.shape, meant], fun rest ends => ?_⟩
      obtain ⟨behind, endsBehind, scanned, -⟩ := spaced.exists_scan ends
      exact ⟨_, scanned.trans (written.scan_token endsBehind)⟩
  | @text _ _ pieces literal meant =>
      obtain ⟨chars, denotes⟩ := meant
      refine ⟨.text pieces, .text (String.ofList chars), ?_, fun rest ends =>
        ⟨_, literal.scan ends⟩⟩
      rw [Token.shape, Text.string?, denotes.meaning?, Option.map_some]
  | list enclosed =>
      refine ⟨.openList, .list, rfl, fun rest ends => ?_⟩
      obtain ⟨inside, behind, -, scanned, -⟩ := Bracket.list.exists_scan enclosed ends
      exact ⟨_, scanned⟩
  | record enclosed =>
      refine ⟨.openRecord, .record, rfl, fun rest ends => ?_⟩
      obtain ⟨inside, behind, -, scanned, -⟩ := Bracket.record.exists_scan enclosed ends
      exact ⟨_, scanned⟩

/-- What is kept of a value is what its first token begins. -/
theorem Value.reads_held {depth around : Nat} {text : List Char}
    (value : Value .meaning depth text) (room : (Care.meaning around).HasRoom [] depth)
    {token : Token} {shape : Shape} (meant : token.shape = .ok shape)
    (begins : ∀ rest, EndsNumber rest → ∃ tail, Token.scan (text ++ rest) = token :: tail) :
    (readHeld around).Reads text shape := by
  intro rest ends
  obtain ⟨tail, scanned⟩ := begins rest ends
  have passed : skipValue (.meaning around) (Token.scan (text ++ rest)) =
      .ok (Token.scan rest) := by
    rw [skipValue, value.passes (Demands.meaning_meets around) room (.inl rfl) rest ends, skip]
  change readHeld around (Token.scan (text ++ rest)) = _
  rw [scanned] at passed ⊢
  rw [readHeld, passed]
  simp only [meant]

/-- Every value that means something is kept, if it is not nested too deeply. -/
theorem Value.exists_reads_held {depth around : Nat} {text : List Char}
    (value : Value .meaning depth text) (shallow : around + depth < Care.nestingLimit) :
    ∃ shape, (readHeld around).Reads text shape := by
  obtain ⟨token, shape, meant, begins⟩ := value.exists_shape
  exact ⟨shape, value.reads_held (Care.hasRoom_meaning shallow) meant begins⟩

/-- Of a string all is kept. -/
theorem Says.reads_held {value : String} {text : List Char} (spelled : Says value text)
    (around : Nat) : (readHeld around).Reads text (.text value) := by
  obtain ⟨pieces, literal, denotes⟩ := spelled
  have isValue : Value .meaning 0 text := .text literal ⟨_, denotes⟩
  have noBrackets : (Care.meaning around).HasRoom [] 0 :=
    fun _ isInner => absurd isInner (Nat.not_lt_zero _)
  have meant : (Token.text pieces).shape = .ok (.text value) := by
    rw [Token.shape, denotes.string?]
  exact isValue.reads_held noBrackets meant fun rest ends => ⟨_, literal.scan ends⟩

/-! ## Lists -/

section

variable {item : Reader α} {advances : item.Advances}

/-- Items are read up to the closing bracket. -/
theorem readItems_reads {values : List α} {texts : List (List Char)} (some_item : texts ≠ [])
    (each : List.Forall₂ (fun value text => item.Reads text value) values texts)
    (rest : List Char) :
    (readItems item advances).run
        (Token.scan (List.intercalate [','] texts ++ ']' :: rest)) =
      .ok (values, Token.scan rest) := by
  induction each with
  | nil => exact absurd rfl some_item
  | @cons value text values texts reads each ih =>
      cases each with
      | nil =>
          have done := reads _ (Bracket.endsNumber_closing .list rest)
          rw [Bracket.scan_closing .list] at done
          rw [List.intercalate_singleton]
          exact readItems_of_close done
      | @cons _ other _ more =>
          have done := reads _
            (endsNumber_comma (List.intercalate [','] (other :: more) ++ ']' :: rest))
          rw [scan_comma] at done
          rw [intercalate_comma_append]
          exact readItems_of_comma done (ih (List.cons_ne_nil _ _))

/-- A list is read item by item, if no item begins with the closing bracket. -/
theorem ListOf.reads {values : List α} {text : List Char}
    (list : ListOf (fun value text => item.Reads text value) values text)
    (refuses : ∀ rest result, item.run (.closeList :: rest) ≠ .ok result)
    {rest : List Char} (ends : EndsNumber rest) :
    ∃ inside, Token.scan (text ++ rest) = .openList :: inside ∧
      (readList item advances).run inside = .ok (values, Token.scan rest) := by
  obtain ⟨texts, each, enclosed⟩ := list
  obtain ⟨inside, behind, separated, scanned, same⟩ :=
    Bracket.list.exists_scan enclosed ends
  refine ⟨_, scanned, ?_⟩
  rw [← same]
  cases each with
  | nil =>
      rw [Blank.scan separated, Bracket.scan_closing .list]
      rfl
  | cons reads each =>
      rw [separated.eq_intercalate]
      exact readList_of_readItems (fun rest reached => refuses rest reached)
        (readItems_reads (List.cons_ne_nil _ _) (.cons reads each) behind)

end

/-! ## Records -/

section

variable {field : α → String → Reader α}

theorem Member.exists_isNamed {member : Member} (meant : Demands.meaning.text member.name) :
    ∃ name, member.IsNamed name := by
  obtain ⟨chars, denotes⟩ := meant
  exact ⟨String.ofList chars, by rwa [Member.IsNamed, String.toList_ofList]⟩

/-- The member is taken: with its name, what stands behind the name is read as the
next state. -/
def Takes (field : α → String → Reader α) (state : α) (member : Member) (next : α) : Prop :=
  ∃ name, member.IsNamed name ∧ (field state name).Reads (':' :: member.value) next

/-- Members are taken one after the other. -/
inductive TakesAll (field : α → String → Reader α) : α → List Member → α → Prop
  | nil {state : α} : TakesAll field state [] state
  | cons {state next final : α} {member : Member} {members : List Member} :
      Takes field state member next → TakesAll field next members final →
        TakesAll field state (member :: members) final

theorem TakesAll.append {state next final : α} {first second : List Member}
    (taken : TakesAll field state first next) (further : TakesAll field next second final) :
    TakesAll field state (first ++ second) final := by
  induction taken with
  | nil => exact further
  | cons takes _ ih => exact .cons takes (ih further)

theorem Takes.reads {state next : α} {member : Member} (taken : Takes field state member next)
    {text : List Char} (written : member.Written text) :
    (readKey >>= field state).Reads text next := by
  obtain ⟨name, isNamed, reads⟩ := taken
  obtain ⟨key, literal, rfl⟩ := written
  intro rest ends
  rw [List.append_assoc, List.cons_append,
    Reader.run_bind_of_ok (literal.reads_key isNamed _ (endsNumber_colon _))]
  exact reads rest ends

variable {advances : ∀ state name, (field state name).Advances}

/-- Fields are read up to the closing bracket. -/
theorem readFields_reads {state final : α} {members : List Member} (some_member : members ≠ [])
    (taken : TakesAll field state members final) {texts : List (List Char)}
    (written : List.Forall₂ Member.Written members texts) (rest : List Char) :
    (readFields field advances state).run
        (Token.scan (List.intercalate [','] texts ++ '\x7d' :: rest)) =
      .ok (final, Token.scan rest) := by
  induction taken generalizing texts with
  | nil => exact absurd rfl some_member
  | @cons state next final member members first further ih =>
      obtain _ | ⟨isWritten, written⟩ := written
      have reads := first.reads isWritten
      cases further with
      | nil =>
          cases written
          have done := reads _ (Bracket.endsNumber_closing .record rest)
          rw [Bracket.scan_closing .record] at done
          rw [List.intercalate_singleton]
          exact readFields_of_close done
      | cons second further =>
          obtain _ | @⟨_, other, _, more, isOther, written⟩ := written
          have done := reads _
            (endsNumber_comma (List.intercalate [','] (other :: more) ++ '\x7d' :: rest))
          rw [scan_comma] at done
          rw [intercalate_comma_append]
          exact (readFields_of_comma done).trans (ih (List.cons_ne_nil _ _) (.cons isOther written))

/-- A record is read as the state to which its members lead. -/
theorem RecordOf.reads {state final : α} {members : List Member} {text : List Char}
    (record : RecordOf members text) (taken : TakesAll field state members final)
    {rest : List Char} (ends : EndsNumber rest) :
    ∃ inside, Token.scan (text ++ rest) = .openRecord :: inside ∧
      (readRecord field advances state).run inside = .ok (final, Token.scan rest) := by
  obtain ⟨texts, written, enclosed⟩ := record
  obtain ⟨inside, behind, separated, scanned, same⟩ :=
    Bracket.record.exists_scan enclosed ends
  refine ⟨_, scanned, ?_⟩
  rw [← same]
  cases written with
  | nil =>
      cases taken
      rw [Blank.scan separated, Bracket.scan_closing .record]
      rfl
  | cons isWritten written =>
      rw [separated.eq_intercalate]
      exact readRecord_of_readFields
        (readFields_reads (List.cons_ne_nil _ _) taken (.cons isWritten written) behind)

end

end PathStore.Json
