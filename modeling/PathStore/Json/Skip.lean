import PathStore.Json.Token

/-!
# Passing over values

A reader passes over a value that it does not ask for.  If nobody will look at
the value, its grammar is all that counts, to any depth.  If the value is kept
for later it has to mean something as well: numbers in range, no surrogate
alone, and no deeper nesting than the limit.  The value is walked token by
token with the brackets that are open in it.
-/

namespace PathStore.Json

/-- An open bracket. -/
inductive Bracket where
  | list
  | record
deriving DecidableEq, Repr

/-- What is asked of a value that is passed over. -/
inductive Care where
  /-- The grammar alone. -/
  | grammar
  /-- A meaning too, inside of `depth` open brackets. -/
  | meaning (depth : Nat)
deriving DecidableEq, Repr

namespace Care

/-- The number of brackets that may not be reached. -/
def nestingLimit : Nat := 128

/-- One of the two faults of a broken token. -/
def choose (care : Care) (strict lax : Fault) : Fault :=
  match care with
  | grammar => lax
  | meaning _ => strict

/-- Another bracket may be opened inside of the `opened` ones. -/
def mayOpen (care : Care) (opened : List Bracket) : Bool :=
  match care with
  | grammar => true
  | meaning depth => depth + opened.length + 1 < nestingLimit

/-- The number is fit to be passed over. -/
def admitsNumber (care : Care) (numeral : Numeral) : Bool :=
  match care with
  | grammar => true
  | meaning _ => numeral.shape?.isSome

/-- The string is fit to be passed over. -/
def admitsText (care : Care) (pieces : List Piece) : Bool :=
  match care with
  | grammar => true
  | meaning _ => (Text.meaning? pieces).isSome

end Care

/-- What the text must go on with. -/
inductive Awaiting where
  /-- A value. -/
  | value
  /-- A value or the end of a list that has just been opened. -/
  | item
  /-- A key or the end of a record that has just been opened. -/
  | field
  /-- A key. -/
  | key
  /-- The colon behind a key. -/
  | colon
  /-- A comma, the end of the innermost bracket, or nothing if none is
  open. -/
  | next
deriving DecidableEq, Repr

/-- Passes over tokens until no bracket is open and no value is due. -/
def skip (care : Care) : Awaiting → List Bracket → List Token → Except ReadError (List Token)
  | .next, [], tokens => .ok tokens
  | _, _, [] => .error .unexpectedEnd
  | .next, .list :: outer, token :: rest =>
    match token with
    | .comma => skip care .value (.list :: outer) rest
    | .closeList => skip care .next outer rest
    | _ => .error .malformed
  | .next, .record :: outer, token :: rest =>
    match token with
    | .comma => skip care .key (.record :: outer) rest
    | .closeRecord => skip care .next outer rest
    | _ => .error .malformed
  | .colon, opened, token :: rest =>
    match token with
    | .colon => skip care .value opened rest
    | _ => .error .malformed
  | .item, .list :: outer, .closeList :: rest => skip care .next outer rest
  | .field, .record :: outer, .closeRecord :: rest => skip care .next outer rest
  | .field, opened, token :: rest | .key, opened, token :: rest =>
    match token with
    | .text pieces =>
      if care.admitsText pieces then skip care .colon opened rest else .error .malformed
    | .brokenText strict lax => .error (.fault (care.choose strict lax))
    | _ => .error .malformed
  | .value, opened, token :: rest | .item, opened, token :: rest =>
    match token with
    | .null | .bool _ => skip care .next opened rest
    | .number numeral =>
      if care.admitsNumber numeral then skip care .next opened rest else .error .malformed
    | .text pieces =>
      if care.admitsText pieces then skip care .next opened rest else .error .malformed
    | .openList =>
      if care.mayOpen opened then skip care .item (.list :: opened) rest
      else .error .malformed
    | .openRecord =>
      if care.mayOpen opened then skip care .field (.record :: opened) rest
      else .error .malformed
    | .brokenText strict lax | .brokenScalar strict lax =>
      .error (.fault (care.choose strict lax))
    | _ => .error .malformed

/-- Passing over tokens leaves no more of them. -/
theorem length_skip {care : Care} {awaiting : Awaiting} {opened : List Bracket}
    {tokens rest : List Token} (done : skip care awaiting opened tokens = .ok rest) :
    rest.length ≤ tokens.length := by
  fun_induction skip care awaiting opened tokens generalizing rest
  all_goals first
    | contradiction
    | (cases done; exact Nat.le_refl _)
    | (rename_i ih; exact Nat.le_succ_of_le (ih done))

/-- Passes over one value and gives what is left behind it. -/
def skipValue (care : Care) (tokens : List Token) : Except ReadError (List Token) :=
  skip care .value [] tokens

/-- A value is at least one token long. -/
theorem length_skipValue {care : Care} {tokens rest : List Token}
    (done : skipValue care tokens = .ok rest) : rest.length < tokens.length := by
  unfold skipValue at done
  cases tokens with
  | nil => cases done
  | cons token tail =>
    unfold skip at done
    repeat' split at done
    all_goals first
      | contradiction
      | exact Nat.lt_succ_of_le (length_skip done)

end PathStore.Json
