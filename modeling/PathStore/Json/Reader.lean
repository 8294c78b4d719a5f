import PathStore.Json.Skip

/-!
# Readers of JSON values

A reader takes the tokens of a text and gives a value and the tokens behind
it, or the first refusal in the order of the text.  Scalars are read whole
before they are refused, a bracket where a scalar is wanted is refused at
once.  Lists and records are read element by element; `document` reads a whole
text.

Reading a list ends because every element takes something off the text:
`Reader.Advances` says so of a reader, and the statements below carry it from
the parts of a reader to the whole.
-/

namespace PathStore.Json

/-- Reads a value off the front of a token list. -/
abbrev Reader (α : Type) := StateT (List Token) (Except ReadError) α

namespace Reader

variable {α β : Type}

/-- The reader leaves no more than it was given. -/
def NeverGrows (reader : Reader α) : Prop :=
  ∀ ⦃tokens : List Token⦄ ⦃value : α⦄ ⦃rest : List Token⦄,
    reader.run tokens = .ok (value, rest) → rest.length ≤ tokens.length

/-- The reader leaves less than it was given. -/
def Advances (reader : Reader α) : Prop :=
  ∀ ⦃tokens : List Token⦄ ⦃value : α⦄ ⦃rest : List Token⦄,
    reader.run tokens = .ok (value, rest) → rest.length < tokens.length

theorem Advances.neverGrows {reader : Reader α} (advances : reader.Advances) :
    reader.NeverGrows :=
  fun _ _ _ done => Nat.le_of_lt (advances done)

theorem neverGrows_pure (value : α) : NeverGrows (pure value) := by
  intro tokens result rest done
  cases done
  exact Nat.le_refl _

theorem neverGrows_lift (value : Except ReadError α) : NeverGrows (StateT.lift value) := by
  intro tokens result rest done
  cases value with
  | error error => cases done
  | ok value => cases done; exact Nat.le_refl _

theorem advances_throw (error : ReadError) : Advances (α := α) (throw error) := by
  intro tokens result rest done
  cases done

/-- A reader that goes on behind another one came to its end through a middle. -/
theorem run_bind_eq_ok {reader : Reader α} {next : α → Reader β} {tokens rest : List Token}
    {result : β} (done : (reader >>= next).run tokens = .ok (result, rest)) :
    ∃ value middle, reader.run tokens = .ok (value, middle)
      ∧ (next value).run middle = .ok (result, rest) := by
  rw [StateT.run_bind] at done
  cases first : reader.run tokens with
  | error error => rw [first] at done; cases done
  | ok reached => rw [first] at done; exact ⟨reached.1, reached.2, rfl, done⟩

theorem neverGrows_bind {reader : Reader α} {next : α → Reader β}
    (first : reader.NeverGrows) (second : ∀ value, (next value).NeverGrows) :
    (reader >>= next).NeverGrows := by
  intro tokens result rest done
  obtain ⟨value, middle, reached, finished⟩ := run_bind_eq_ok done
  exact Nat.le_trans (second value finished) (first reached)

theorem advances_bind {reader : Reader α} {next : α → Reader β}
    (first : reader.Advances) (second : ∀ value, (next value).NeverGrows) :
    (reader >>= next).Advances := by
  intro tokens result rest done
  obtain ⟨value, middle, reached, finished⟩ := run_bind_eq_ok done
  exact Nat.lt_of_le_of_lt (second value finished) (first reached)

end Reader

/-- What a token begins, if it begins a value that means something. -/
def Token.shape : Token → Except ReadError Shape
  | .null => .ok .null
  | .bool value => .ok (.bool value)
  | .number numeral =>
    match numeral.shape? with
    | some shape => .ok shape
    | none => .error .malformed
  | .text pieces =>
    match Text.string? pieces with
    | some value => .ok (.text value)
    | none => .error .malformed
  | .openList => .ok .list
  | .openRecord => .ok .record
  | .brokenText strict _ | .brokenScalar strict _ => .error (.fault strict)
  | .closeList | .closeRecord | .colon | .comma => .error .malformed

/-- The refusal of a value that is not what was expected. -/
def refusal (expected : String) (token : Token) : ReadError :=
  match token.shape with
  | .ok found => .mismatch (.wrongType found expected)
  | .error error => error

/-- Reads the value that one token makes. -/
def readToken {α : Type} (value : Token → Except ReadError α) : Reader α
  | [] => .error .unexpectedEnd
  | token :: rest =>
    match value token with
    | .ok value => .ok (value, rest)
    | .error error => .error error

theorem advances_readToken {α : Type} (value : Token → Except ReadError α) :
    (readToken value).Advances := by
  intro tokens result rest done
  simp only [StateT.run] at done
  unfold readToken at done
  split at done
  · cases done
  · split at done <;> cases done
    exact Nat.lt_succ_self _

/-- Reads a string. -/
def readString (expected : String) : Reader String :=
  readToken fun
    | .text pieces =>
      match Text.string? pieces with
      | some value => .ok value
      | none => .error .malformed
    | token => .error (refusal expected token)

/-- Reads a truth value. -/
def readBool (expected : String) : Reader Bool :=
  readToken fun
    | .bool value => .ok value
    | token => .error (refusal expected token)

/-- Reads a whole number below 256. -/
def readByte : Reader UInt8 :=
  readToken fun token =>
    match token.shape with
    | .ok (.integer value) =>
      if 0 ≤ value ∧ value < 256 then .ok (UInt8.ofNat value.toNat)
      else .error (.mismatch (.wrongValue (.integer value) "u8"))
    | _ => .error (refusal "u8" token)

/-- Reads the key of a field. -/
def readKey : Reader String :=
  readToken fun
    | .text pieces =>
      match Text.string? pieces with
      | some name => .ok name
      | none => .error .malformed
    | .brokenText strict _ => .error (.fault strict)
    | _ => .error .malformed

/-- Passes a token of punctuation. -/
def readMark (mark : Token) : Reader Unit :=
  readToken fun token => if token = mark then .ok () else .error .malformed

/-- Passes over a value. -/
def passValue (care : Care) : Reader Unit := fun tokens =>
  match skipValue care tokens with
  | .ok rest => .ok ((), rest)
  | .error error => .error error

theorem advances_passValue (care : Care) : (passValue care).Advances := by
  intro tokens result rest done
  simp only [StateT.run, passValue] at done
  split at done <;> cases done
  exact length_skipValue ‹_›

/-- Reads a value to be looked at later, inside of `depth` open brackets.  Only
its shape is kept. -/
def readHeld (depth : Nat) : Reader Shape
  | [] => .error .unexpectedEnd
  | token :: rest =>
    match skipValue (.meaning depth) (token :: rest) with
    | .error error => .error error
    | .ok rest =>
      match token.shape with
      | .error error => .error error
      | .ok shape => .ok (shape, rest)

theorem advances_readHeld (depth : Nat) : (readHeld depth).Advances := by
  intro tokens result rest done
  simp only [StateT.run] at done
  unfold readHeld at done
  split at done
  · cases done
  · split at done
    · cases done
    · split at done <;> cases done
      exact length_skipValue ‹_›

/-- Reads the items of a list up to its end, at least one. -/
def readItems {α : Type} (item : Reader α) (advances : item.Advances) : Reader (List α) :=
  fun tokens =>
    match _ : item.run tokens with
    | .error error => .error error
    | .ok (_, []) => .error .unexpectedEnd
    | .ok (value, .closeList :: rest) => .ok ([value], rest)
    | .ok (value, .comma :: rest) =>
      match readItems item advances rest with
      | .error error => .error error
      | .ok (values, rest) => .ok (value :: values, rest)
    | .ok (_, _ :: _) => .error .malformed
termination_by tokens => tokens.length
decreasing_by
  have shorter := advances ‹item.run _ = _›
  exact Nat.lt_of_succ_lt shorter

theorem advances_readItems {α : Type} (item : Reader α) (advances : item.Advances) :
    (readItems item advances).Advances := by
  intro tokens values rest done
  simp only [StateT.run] at done
  fun_induction readItems item advances tokens generalizing values rest with
  | case1 | case2 | case4 | case6 => cases done
  | case3 tokens value tail reached =>
    cases done
    exact Nat.lt_of_succ_lt (advances reached)
  | case5 tokens value tail reached values' rest' further ih =>
    cases done
    exact Nat.lt_trans (ih further) (Nat.lt_of_succ_lt (advances reached))

/-- Reads a list from behind its opening bracket. -/
def readList {α : Type} (item : Reader α) (advances : item.Advances) : Reader (List α)
  | .closeList :: rest => .ok ([], rest)
  | tokens => readItems item advances tokens

theorem advances_readList {α : Type} (item : Reader α) (advances : item.Advances) :
    (readList item advances).Advances := by
  intro tokens values rest done
  simp only [StateT.run] at done
  unfold readList at done
  split at done
  · cases done
    exact Nat.lt_succ_self _
  · exact advances_readItems item advances done

/-- Reads the fields of a record up to its end, at least one.  The field
reader is given what was read so far and the key. -/
def readFields {α : Type} (field : α → String → Reader α)
    (advances : ∀ state name, (field state name).Advances) (state : α) : Reader α :=
  fun tokens =>
    match _ : (readKey >>= field state).run tokens with
    | .error error => .error error
    | .ok (_, []) => .error .unexpectedEnd
    | .ok (state, .closeRecord :: rest) => .ok (state, rest)
    | .ok (state, .comma :: rest) => readFields field advances state rest
    | .ok (_, _ :: _) => .error .malformed
termination_by tokens => tokens.length
decreasing_by
  have shorter := Reader.advances_bind (advances_readToken _)
    (fun name => (advances _ name).neverGrows) ‹(readKey >>= field _).run _ = _›
  exact Nat.lt_of_succ_lt shorter

theorem advances_readFields {α : Type} (field : α → String → Reader α)
    (advances : ∀ state name, (field state name).Advances) (state : α) :
    (readFields field advances state).Advances := by
  intro tokens result rest done
  simp only [StateT.run] at done
  have step {state : α} {tokens : List Token} {reached : α × List Token}
      (done : (readKey >>= field state).run tokens = .ok reached) :
      reached.2.length < tokens.length :=
    Reader.advances_bind (advances_readToken _) (fun name => (advances _ name).neverGrows) done
  fun_induction readFields field advances state tokens generalizing result rest with
  | case1 | case2 | case5 => cases done
  | case3 state tokens last tail reached =>
    cases done
    exact Nat.lt_of_succ_lt (step reached)
  | case4 state tokens next tail reached ih =>
    exact Nat.lt_trans (ih done) (Nat.lt_of_succ_lt (step reached))

/-- Reads a record from behind its opening bracket. -/
def readRecord {α : Type} (field : α → String → Reader α)
    (advances : ∀ state name, (field state name).Advances) (state : α) : Reader α
  | .closeRecord :: rest => .ok (state, rest)
  | tokens => readFields field advances state tokens

theorem advances_readRecord {α : Type} (field : α → String → Reader α)
    (advances : ∀ state name, (field state name).Advances) (state : α) :
    (readRecord field advances state).Advances := by
  intro tokens result rest done
  simp only [StateT.run] at done
  unfold readRecord at done
  split at done
  · cases done
    exact Nat.lt_succ_self _
  · exact advances_readFields field advances state done

/-- Reads a text that holds one value and nothing else. -/
def document {α : Type} (value : Reader α) (text : List Char) : Except ReadError α :=
  match value.run (Token.scan text) with
  | .error error => .error error
  | .ok (result, []) => .ok result
  | .ok (_, _ :: _) => .error .malformed

end PathStore.Json
