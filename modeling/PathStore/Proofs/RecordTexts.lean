import PathStore.Proofs.GrammarReading
import PathStore.Proofs.PassedTexts
import PathStore.Proofs.WholeTexts

/-!
# What was written where a record is read

The converse of reading grammatical lists and records.  If a reader of fields takes
nothing else than what it is said to take, a record was read from its members, each of
which has led from one state to the next.  A text that is read as a whole has nothing
but blanks behind its value.
-/

namespace PathStore.Json

variable {α β : Type} {text : List Char} {tokens : List Token}

/-! ## Whole texts -/

/-- Behind a whole text stand blanks alone. -/
theorem BeginsWith.whole {written : List Char → Prop} (begins : BeginsWith written text []) :
    written text := by
  obtain ⟨front, blanks, rfl, ended, isWritten⟩ := begins
  rw [Token.scan_eq_nil_iff] at ended
  exact isWritten blanks fun c isMember => Token.isBlank_iff.mp (ended c isMember)

theorem Reader.TakesOnly.document {reader : Reader α} {written : α → List Char → Prop}
    (takesOnly : reader.TakesOnly written) {value : α}
    (accepted : Json.document reader text = .ok value) : written value text :=
  (takesOnly (document_eq_ok_iff.mp accepted)).whole

/-- What is judged without reading on takes nothing off. -/
theorem Reader.eq_of_lift {judged : Except ReadError α} {value : α} {given : List Token}
    (done : (StateT.lift judged : Reader α).run given = .ok (value, tokens)) :
    judged = .ok value ∧ given = tokens := by
  cases judged with
  | error error => cases done
  | ok judged =>
      cases done
      exact ⟨rfl, rfl⟩

/-! ## Brackets -/

/-- A list that is read from behind its bracket was written with its items. -/
theorem beginsWith_listOf {item : Reader α} {advances : item.Advances}
    {written : α → List Char → Prop} (takesOnly : item.TakesOnly written) {values : List α}
    {inside : List Token} (scanned : Token.scan text = .openList :: inside)
    (done : (readList item advances).run inside = .ok (values, tokens)) :
    BeginsWith (ListOf written values) text tokens := by
  obtain ⟨before, rest, blank, rfl, rfl⟩ := Token.exists_of_scan_mark rfl scanned
  obtain ⟨items, between, behind, areWritten, separated, rfl, further⟩ :=
    exists_of_readList takesOnly done
  exact (separated.beginsWith blank further .list).imp fun _ enclosed =>
    ⟨items, areWritten, enclosed⟩

/-! ## Fields -/

/-- What the reader takes off behind a name is a colon and what leads to the next state. -/
def TakesFields (field : α → String → Reader α)
    (leads : α → String → List Char → α → Prop) : Prop :=
  ∀ ⦃state : α⦄ ⦃name : String⦄ ⦃text : List Char⦄ ⦃next : α⦄ ⦃tokens : List Token⦄,
    (field state name).run (Token.scan text) = .ok (next, tokens) →
      ∃ blanks rest, Blank blanks ∧ text = blanks ++ ':' :: rest ∧
        BeginsWith (leads state name · next) rest tokens

/-- Members lead from one state to another, one after the other. -/
inductive Led (leads : α → String → List Char → α → Prop) : α → List Member → α → Prop
  | nil {state : α} : Led leads state [] state
  | cons {state next final : α} {member : Member} {members : List Member} {name : String} :
      member.IsNamed name → leads state name member.value next → Led leads next members final →
        Led leads state (member :: members) final

/-- A member has one name. -/
theorem Member.name_unique {member : Member} {first second : String}
    (isNamed : member.IsNamed first) (other : member.IsNamed second) : first = second :=
  String.toList_inj.mp (Text.Denotes.unique isNamed other)

theorem eq_of_readMark {mark : Token} {given : List Token}
    (done : (readMark mark).run given = .ok ((), tokens)) : given = mark :: tokens := by
  obtain ⟨token, rfl, isMark⟩ := exists_of_readToken done
  split_ifs at isMark with same
  rw [same]

/-- A colon stands in front of what is read behind it. -/
theorem Reader.TakesOnly.behind_colon {reader : Reader α} {written : α → List Char → Prop}
    (takesOnly : reader.TakesOnly written) {value : α}
    (done : (readMark .colon >>= fun _ => reader).run (Token.scan text) = .ok (value, tokens)) :
    ∃ blanks rest, Blank blanks ∧ text = blanks ++ ':' :: rest ∧
      BeginsWith (written value) rest tokens := by
  obtain ⟨_, middle, passed, further⟩ := Reader.run_bind_eq_ok done
  obtain ⟨blanks, rest, blank, rfl, rfl⟩ := Token.exists_of_scan_mark rfl (eq_of_readMark passed)
  exact ⟨blanks, rest, blank, rfl, takesOnly further⟩

/-- What is computed from a value is taken off with the value. -/
theorem Reader.TakesOnly.bind_pure {reader : Reader α} {written : α → List Char → Prop}
    (takesOnly : reader.TakesOnly written) (result : α → β) :
    (reader >>= fun value => pure (result value)).TakesOnly
      fun final text => ∃ value, final = result value ∧ written value text := by
  intro text final tokens done
  obtain ⟨value, middle, reached, finished⟩ := Reader.run_bind_eq_ok done
  cases finished
  exact (takesOnly reached).imp fun _ isWritten => ⟨value, rfl, isWritten⟩

section

variable {field : α → String → Reader α} {leads : α → String → List Char → α → Prop}
  {advances : ∀ state name, (field state name).Advances} {state next final : α}

/-- A name and what stands behind it are a member. -/
theorem exists_of_readMember (takesFields : TakesFields field leads)
    (done : (readKey >>= field state).run (Token.scan text) = .ok (next, tokens)) :
    BeginsWith (fun text => ∃ (member : Member) (name : String), member.Written text ∧
      member.IsNamed name ∧ leads state name member.value next) text tokens := by
  obtain ⟨name, middle, named, further⟩ := Reader.run_bind_eq_ok done
  obtain ⟨front, behind, rfl, rfl, spelled⟩ := readKey_takesOnly named
  obtain ⟨blanks, rest, blank, rfl, begins⟩ := takesFields further
  obtain ⟨pieces, literal, denotes⟩ := spelled blanks blank
  rw [← List.append_assoc]
  exact begins.behind_colon fun value led =>
    ⟨⟨pieces, value⟩, name, ⟨_, literal, rfl⟩, denotes, led⟩

/-- Fields that were read are members with commas between them, and the closing bracket
stands behind them. -/
theorem exists_of_readFields (takesFields : TakesFields field leads)
    (done : readFields field advances state (Token.scan text) = .ok (final, tokens)) :
    ∃ members items rest, items ≠ [] ∧ Led leads state members final ∧
      List.Forall₂ Member.Written members items ∧
      text = List.intercalate [','] items ++ '\x7d' :: rest ∧ Token.scan rest = tokens := by
  generalize same : Token.scan text = scanned at done
  fun_induction readFields field advances state scanned generalizing text tokens with
  | case1 | case2 | case5 => cases done
  | case3 state _ last tail reached =>
      cases done
      subst same
      obtain ⟨item, rest, ⟨member, name, isWritten, isNamed, led⟩, rfl, further⟩ :=
        (exists_of_readMember takesFields reached).exists_mark rfl
      exact ⟨[member], [item], rest, List.cons_ne_nil _ _, .cons isNamed led .nil,
        .cons isWritten .nil, by simp, further⟩
  | case4 state _ next tail reached ih =>
      subst same
      obtain ⟨item, behind, ⟨member, name, isWritten, isNamed, led⟩, rfl, further⟩ :=
        (exists_of_readMember takesFields reached).exists_mark rfl
      obtain ⟨members, items, rest, some_item, ledFurther, areWritten, rfl, ended⟩ :=
        ih further done
      obtain ⟨second, items, rfl⟩ := List.exists_cons_of_ne_nil some_item
      exact ⟨member :: members, item :: second :: items, rest, List.cons_ne_nil _ _,
        .cons isNamed led ledFurther, .cons isWritten areWritten,
        (intercalate_comma_append _ _ _ _).symm, ended⟩

/-- A record that is read from behind its bracket was written with its members. -/
theorem beginsWith_recordOf (takesFields : TakesFields field leads) {inside : List Token}
    (scanned : Token.scan text = .openRecord :: inside)
    (done : (readRecord field advances state).run inside = .ok (final, tokens)) :
    BeginsWith (fun text => ∃ members, Led leads state members final ∧ RecordOf members text)
      text tokens := by
  obtain ⟨before, rest, blank, rfl, rfl⟩ := Token.exists_of_scan_mark rfl scanned
  simp only [StateT.run] at done
  unfold readRecord at done
  split at done
  · rename_i tail closed
    cases done
    obtain ⟨blanks, rest, areBlank, rfl, further⟩ := Token.exists_of_scan_mark rfl closed
    have empty : Separated [] blanks := areBlank
    exact (empty.beginsWith blank further .record).imp fun _ enclosed =>
      ⟨[], .nil, [], .nil, enclosed⟩
  · obtain ⟨members, items, rest, some_item, led, areWritten, rfl, further⟩ :=
      exists_of_readFields takesFields done
    obtain ⟨first, items, rfl⟩ := List.exists_cons_of_ne_nil some_item
    have separated : Separated (first :: items) (List.intercalate [','] (first :: items)) := rfl
    exact (separated.beginsWith blank further .record).imp fun _ enclosed =>
      ⟨members, led, _, areWritten, enclosed⟩

end

end PathStore.Json
