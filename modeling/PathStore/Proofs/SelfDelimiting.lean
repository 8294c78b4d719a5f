import PathStore.Proofs.ReadingSteps
import PathStore.Proofs.TokenStreams

/-!
# Readers that know where a value ends

A reader is self-delimiting if the tokens it takes are a piece of the text that
it would take in front of anything else too, with the same value.  The notion is
carried from the parts of a reader to the whole, as `Reader.Advances` is.  A
value in brackets ends in its closing bracket; that is kept beside it, because a
text may be continued behind a bracket, but not behind a number.
-/

namespace PathStore.Json

variable {α β : Type}

namespace Reader

/-- The reader takes these tokens for this value, whatever stands behind them. -/
structure Takes (reader : Reader α) (front : List Token) (value : α) : Prop where
  whole : ∀ token ∈ front, token.IsWhole
  reads : ∀ more, reader.run (front ++ more) = .ok (value, more)

/-- Where the reader stops does not depend on what stands there. -/
def SelfDelimiting (reader : Reader α) : Prop :=
  ∀ ⦃tokens : List Token⦄ ⦃value : α⦄ ⦃rest : List Token⦄,
    reader.run tokens = .ok (value, rest) →
      ∃ front, tokens = front ++ rest ∧ reader.Takes front value

/-- The reader stops behind a closing bracket. -/
def Closed (reader : Reader α) : Prop :=
  ∀ ⦃tokens : List Token⦄ ⦃value : α⦄ ⦃rest : List Token⦄,
    reader.run tokens = .ok (value, rest) →
      ∃ front close, tokens = front ++ close :: rest ∧ close.IsClosing ∧
        reader.Takes (front ++ [close]) value

/-- The reader takes nothing. -/
def Idle (reader : Reader α) : Prop :=
  ∀ ⦃tokens : List Token⦄ ⦃value : α⦄ ⦃rest : List Token⦄,
    reader.run tokens = .ok (value, rest) → rest = tokens ∧ reader.Takes [] value

theorem Closed.selfDelimiting {reader : Reader α} (closed : reader.Closed) :
    reader.SelfDelimiting := by
  intro tokens value rest done
  obtain ⟨front, close, rfl, -, takes⟩ := closed done
  exact ⟨front ++ [close], by simp, takes⟩

theorem Idle.selfDelimiting {reader : Reader α} (idle : reader.Idle) :
    reader.SelfDelimiting := by
  intro tokens value rest done
  obtain ⟨rfl, takes⟩ := idle done
  exact ⟨[], rfl, takes⟩

theorem idle_pure (value : α) : Idle (pure value) := by
  intro tokens result rest done
  cases done
  exact ⟨rfl, by simp, fun _ => rfl⟩

theorem idle_lift (value : Except ReadError α) : Idle (StateT.lift value) := by
  intro tokens result rest done
  cases value with
  | error error => cases done
  | ok value =>
      cases done
      exact ⟨rfl, by simp, fun _ => rfl⟩

theorem selfDelimiting_throw (error : ReadError) : SelfDelimiting (α := α) (throw error) := by
  intro tokens result rest done
  cases done

/-- Pieces that are taken one after the other make one piece. -/
theorem Takes.bind {reader : Reader α} {next : α → Reader β} {front back : List Token}
    {value : α} {result : β} (first : reader.Takes front value)
    (second : (next value).Takes back result) :
    (reader >>= next).Takes (front ++ back) result where
  whole := List.forall_mem_append.2 ⟨first.whole, second.whole⟩
  reads more := by rw [List.append_assoc, run_bind_of_ok (first.reads _), second.reads]

theorem selfDelimiting_bind {reader : Reader α} {next : α → Reader β}
    (first : reader.SelfDelimiting) (second : ∀ value, (next value).SelfDelimiting) :
    (reader >>= next).SelfDelimiting := by
  intro tokens result rest done
  obtain ⟨value, middle, reached, finished⟩ := run_bind_eq_ok done
  obtain ⟨front, rfl, taken⟩ := first reached
  obtain ⟨back, rfl, further⟩ := second value finished
  exact ⟨front ++ back, by simp, taken.bind further⟩

theorem SelfDelimiting.bind_idle {reader : Reader α} {next : α → Reader β}
    (first : reader.SelfDelimiting) (second : ∀ value, (next value).Idle) :
    (reader >>= next).SelfDelimiting :=
  selfDelimiting_bind first fun value => (second value).selfDelimiting

theorem closed_bind {reader : Reader α} {next : α → Reader β}
    (first : reader.SelfDelimiting) (second : ∀ value, (next value).Closed) :
    (reader >>= next).Closed := by
  intro tokens result rest done
  obtain ⟨value, middle, reached, finished⟩ := run_bind_eq_ok done
  obtain ⟨front, rfl, taken⟩ := first reached
  obtain ⟨back, close, rfl, closing, further⟩ := second value finished
  refine ⟨front ++ back, close, by simp, closing, ?_⟩
  rw [List.append_assoc]
  exact taken.bind further

/-- What is done with a value behind its bracket takes nothing further. -/
theorem Closed.bind_idle {reader : Reader α} {next : α → Reader β} (first : reader.Closed)
    (second : ∀ value, (next value).Idle) : (reader >>= next).Closed := by
  intro tokens result rest done
  obtain ⟨value, middle, reached, finished⟩ := run_bind_eq_ok done
  obtain ⟨front, close, rfl, closing, taken⟩ := first reached
  obtain ⟨rfl, further⟩ := second value finished
  refine ⟨front, close, rfl, closing, ?_⟩
  simpa using taken.bind further

theorem Closed.map {reader : Reader α} (closed : reader.Closed) (f : α → β) :
    (f <$> reader).Closed := by
  rw [map_eq_pure_bind]
  exact closed.bind_idle fun _ => idle_pure _

/-- A reader that only passes a closing bracket stops behind it. -/
theorem closed_at_bracket {reader : Reader α} {bracket : Token} {rest : List Token} {value : α}
    (closing : bracket.IsClosing)
    (passes : ∀ more, reader.run (bracket :: more) = .ok (value, more)) :
    ∃ front close, bracket :: rest = front ++ close :: rest ∧ close.IsClosing ∧
      reader.Takes (front ++ [close]) value :=
  ⟨[], bracket, rfl, closing, List.forall_mem_singleton.2 closing.isWhole, passes⟩

/-- A reader that passes a token and goes on as another one stops where the
other one does. -/
theorem Closed.opened {reader inner : Reader α} {token : Token} {tokens rest : List Token}
    {value : α} (closed : inner.Closed) (done : inner.run tokens = .ok (value, rest))
    (whole : token.IsWhole)
    (goesOn : ∀ tokens result, inner.run tokens = .ok result →
      reader.run (token :: tokens) = .ok result) :
    ∃ front close, token :: tokens = front ++ close :: rest ∧ close.IsClosing ∧
      reader.Takes (front ++ [close]) value := by
  obtain ⟨front, close, rfl, closing, taken⟩ := closed done
  exact ⟨token :: front, close, rfl, closing, List.forall_mem_cons.2 ⟨whole, taken.whole⟩,
    fun more => goesOn _ _ (taken.reads more)⟩

end Reader

/-! ## Values of one token -/

theorem selfDelimiting_readToken {value : Token → Except ReadError α}
    (wholes : ∀ token result, value token = .ok result → token.IsWhole) :
    (readToken value).SelfDelimiting := by
  intro tokens result rest done
  cases tokens with
  | nil => cases done
  | cons token tail =>
      simp only [StateT.run, readToken] at done
      split at done <;> cases done
      rename_i isValue
      refine ⟨[token], rfl, ?_, readToken_of_ok isValue⟩
      simpa using wholes token _ isValue

theorem selfDelimiting_readString (expected : String) : (readString expected).SelfDelimiting := by
  refine selfDelimiting_readToken fun token result isValue => ?_
  cases token <;> simp_all [Token.IsWhole, refusal, Token.shape]

theorem selfDelimiting_readBool (expected : String) : (readBool expected).SelfDelimiting := by
  refine selfDelimiting_readToken fun token result isValue => ?_
  cases token <;> simp_all [Token.IsWhole, refusal, Token.shape]

theorem selfDelimiting_readByte : readByte.SelfDelimiting := by
  refine selfDelimiting_readToken fun token result isValue => ?_
  cases token <;> simp_all [Token.IsWhole, refusal, Token.shape]

theorem selfDelimiting_readKey : readKey.SelfDelimiting := by
  refine selfDelimiting_readToken fun token result isValue => ?_
  cases token <;> simp_all [Token.IsWhole]

theorem selfDelimiting_readMark {mark : Token} (whole : mark.IsWhole) :
    (readMark mark).SelfDelimiting := by
  refine selfDelimiting_readToken fun token result isMark => ?_
  split_ifs at isMark with same
  rwa [same]

/-- A closing bracket ends in itself. -/
theorem closed_readMark (mark : Token) (closing : mark.IsClosing) : (readMark mark).Closed := by
  intro tokens result rest done
  cases tokens with
  | nil => cases done
  | cons token tail =>
      simp only [readMark, readToken, StateT.run] at done
      split_ifs at done with same
      cases done
      rw [same]
      exact Reader.closed_at_bracket closing (readMark_self mark)

/-! ## Values that are passed over -/

/-- Each token that is passed decides alone how to go on. -/
theorem skip_takes {care : Care} {awaiting : Awaiting} {opened : List Bracket}
    {tokens rest : List Token} (done : skip care awaiting opened tokens = .ok rest) :
    ∃ front, tokens = front ++ rest ∧ (∀ token ∈ front, token.IsWhole) ∧
      ∀ more, skip care awaiting opened (front ++ more) = .ok more := by
  fun_induction skip care awaiting opened tokens generalizing rest
  case case1 tokens =>
    cases done
    exact ⟨[], rfl, by simp, fun more => by cases more <;> rfl⟩
  -- in every other case the walk is refused, or goes on behind one token
  all_goals first
    | contradiction
    | rename_i ih
      obtain ⟨front, rfl, whole, passed⟩ := ih done
      refine ⟨_ :: front, rfl, List.forall_mem_cons.2 ⟨trivial, whole⟩, fun more => ?_⟩
      rw [List.cons_append, skip]
      all_goals simp_all

/-- A value is passed over together with its first token. -/
theorem skipValue_takes {care : Care} {tokens rest : List Token}
    (done : skipValue care tokens = .ok rest) :
    ∃ token front, tokens = token :: front ++ rest ∧
      (∀ passed ∈ token :: front, passed.IsWhole) ∧
      ∀ more, skipValue care (token :: front ++ more) = .ok more := by
  obtain ⟨front, rfl, whole, passed⟩ := skip_takes done
  cases front with
  | nil => exact absurd (length_skipValue done) (Nat.lt_irrefl _)
  | cons token front => exact ⟨token, front, rfl, whole, passed⟩

theorem selfDelimiting_passValue (care : Care) : (passValue care).SelfDelimiting := by
  intro tokens result rest done
  simp only [StateT.run, passValue] at done
  split at done <;> cases done
  rename_i skipped
  obtain ⟨token, front, rfl, whole, passed⟩ := skipValue_takes skipped
  refine ⟨token :: front, rfl, whole, fun more => ?_⟩
  simp only [StateT.run, passValue, passed]

theorem selfDelimiting_readHeld (depth : Nat) : (readHeld depth).SelfDelimiting := by
  intro tokens result rest done
  simp only [StateT.run] at done
  unfold readHeld at done
  split at done
  · cases done
  · rename_i token tail
    split at done
    · cases done
    · rename_i left skipped
      obtain ⟨first, front, same, whole, passed⟩ := skipValue_takes skipped
      cases same
      split at done <;> cases done
      rename_i shaped
      refine ⟨token :: front, rfl, whole, fun more => ?_⟩
      have passes := passed more
      rw [List.cons_append] at passes ⊢
      simp only [StateT.run, readHeld, passes, shaped]

/-! ## Lists and records -/

theorem closed_readItems {item : Reader α} {advances : item.Advances}
    (element : item.SelfDelimiting) : (readItems item advances).Closed := by
  intro tokens values rest done
  simp only [StateT.run] at done
  fun_induction readItems item advances tokens generalizing values rest with
  | case1 | case2 | case4 | case6 => cases done
  | case3 tokens value tail reached =>
      cases done
      obtain ⟨front, rfl, taken⟩ := element reached
      refine ⟨front, .closeList, rfl, trivial, ?_, fun more => ?_⟩
      · exact List.forall_mem_append.2 ⟨taken.whole, List.forall_mem_singleton.2 trivial⟩
      · have ends := taken.reads (.closeList :: more)
        rw [List.append_assoc]
        exact readItems_of_close ends
  | case5 tokens value tail reached further left others ih =>
      cases done
      obtain ⟨front, rfl, taken⟩ := element reached
      obtain ⟨back, close, rfl, closing, goesOn⟩ := ih others
      refine ⟨front ++ .comma :: back, close, by simp, closing, ?_⟩
      rw [List.append_assoc, List.cons_append]
      refine ⟨List.forall_mem_append.2 ⟨taken.whole,
        List.forall_mem_cons.2 ⟨trivial, goesOn.whole⟩⟩, fun more => ?_⟩
      have continues := taken.reads (.comma :: (back ++ [close] ++ more))
      rw [List.append_assoc, List.cons_append]
      exact readItems_of_comma continues (goesOn.reads more)

theorem closed_readList {item : Reader α} {advances : item.Advances}
    (element : item.SelfDelimiting) : (readList item advances).Closed := by
  intro tokens values rest done
  simp only [StateT.run] at done
  unfold readList at done
  split at done
  · cases done
    exact Reader.closed_at_bracket trivial fun _ => rfl
  · rename_i notClosed
    obtain ⟨front, close, rfl, closing, taken⟩ := closed_readItems element done
    refine ⟨front, close, rfl, closing, taken.whole, fun more => ?_⟩
    have reads := taken.reads more
    simp only [StateT.run] at reads ⊢
    unfold readList
    split
    · rename_i begins
      cases front <;> cases begins <;> exact (notClosed _ rfl).elim
    · exact reads

theorem closed_readFields {field : α → String → Reader α}
    {advances : ∀ state name, (field state name).Advances} {state : α}
    (element : ∀ state name, (field state name).SelfDelimiting) :
    (readFields field advances state).Closed := by
  intro tokens result rest done
  simp only [StateT.run] at done
  have member (state : α) : (readKey >>= field state).SelfDelimiting :=
    Reader.selfDelimiting_bind selfDelimiting_readKey (element state)
  fun_induction readFields field advances state tokens generalizing result rest with
  | case1 | case2 | case5 => cases done
  | case3 state tokens last tail reached =>
      cases done
      obtain ⟨front, rfl, taken⟩ := member state reached
      refine ⟨front, .closeRecord, rfl, trivial, ?_, fun more => ?_⟩
      · exact List.forall_mem_append.2 ⟨taken.whole, List.forall_mem_singleton.2 trivial⟩
      · have ends := taken.reads (.closeRecord :: more)
        rw [List.append_assoc]
        exact readFields_of_close ends
  | case4 state tokens next tail reached ih =>
      obtain ⟨front, rfl, taken⟩ := member state reached
      obtain ⟨back, close, rfl, closing, goesOn⟩ := ih done
      refine ⟨front ++ .comma :: back, close, by simp, closing, ?_⟩
      rw [List.append_assoc, List.cons_append]
      refine ⟨List.forall_mem_append.2 ⟨taken.whole,
        List.forall_mem_cons.2 ⟨trivial, goesOn.whole⟩⟩, fun more => ?_⟩
      have continues := taken.reads (.comma :: (back ++ [close] ++ more))
      rw [List.append_assoc, List.cons_append]
      exact (readFields_of_comma continues).trans (goesOn.reads more)

theorem closed_readRecord {field : α → String → Reader α}
    {advances : ∀ state name, (field state name).Advances} {state : α}
    (element : ∀ state name, (field state name).SelfDelimiting) :
    (readRecord field advances state).Closed := by
  intro tokens result rest done
  simp only [StateT.run] at done
  unfold readRecord at done
  split at done
  · cases done
    exact Reader.closed_at_bracket trivial fun _ => rfl
  · obtain ⟨front, close, rfl, closing, taken⟩ := closed_readFields element done
    exact ⟨front, close, rfl, closing, taken.whole,
      fun more => readRecord_of_readFields (taken.reads more)⟩

end PathStore.Json
