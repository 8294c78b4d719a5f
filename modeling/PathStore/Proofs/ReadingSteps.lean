import PathStore.Json.Reader

/-!
# Readers step by step

A reader that is put together from others runs them one after the other, and a
list or a record is read element by element: behind a comma it goes on, at its
closing bracket it ends.
-/

namespace PathStore.Json

variable {α β : Type}

/-- A reader goes on where the one before it has stopped. -/
theorem Reader.run_bind_of_ok {reader : Reader α} {next : α → Reader β}
    {tokens middle : List Token} {value : α} (done : reader.run tokens = .ok (value, middle)) :
    (reader >>= next).run tokens = (next value).run middle := by
  rw [StateT.run_bind, done]
  rfl

theorem Reader.run_map_of_ok {reader : Reader α} {tokens rest : List Token} {value : α}
    (done : reader.run tokens = .ok (value, rest)) (result : α → β) :
    (result <$> reader).run tokens = .ok (result value, rest) := by
  rw [StateT.run_map, done]
  rfl

theorem readToken_of_ok {value : Token → Except ReadError α} {token : Token}
    {result : α} (isValue : value token = .ok result) (rest : List Token) :
    (readToken value).run (token :: rest) = .ok (result, rest) := by
  simp only [StateT.run, readToken, isValue]

theorem readMark_self (mark : Token) (rest : List Token) :
    (readMark mark).run (mark :: rest) = .ok ((), rest) :=
  readToken_of_ok (if_pos rfl) rest

/-! ## Lists item by item -/

section

variable {item : Reader α} {advances : item.Advances} {value : α} {tokens rest : List Token}

/-- Behind a comma the list goes on with the next item. -/
theorem readItems_of_comma (done : item.run tokens = .ok (value, .comma :: rest))
    {values : List α} {left : List Token}
    (further : readItems item advances rest = .ok (values, left)) :
    readItems item advances tokens = .ok (value :: values, left) := by
  rw [readItems]
  split
  all_goals
    rename_i reached
    rw [done] at reached
    cases reached
  · rw [further]
  · contradiction

/-- At the closing bracket it ends. -/
theorem readItems_of_close (done : item.run tokens = .ok (value, .closeList :: rest)) :
    readItems item advances tokens = .ok ([value], rest) := by
  rw [readItems]
  split
  all_goals
    rename_i reached
    rw [done] at reached
    cases reached
  · rfl
  · contradiction

/-- A list with items does not begin with its closing bracket, if no item does. -/
theorem readList_of_readItems
    (refuses : ∀ rest reached, item.run (.closeList :: rest) ≠ .ok reached)
    {result : List α × List Token} (done : readItems item advances tokens = .ok result) :
    readList item advances tokens = .ok result := by
  rw [readList.eq_def]
  split
  · rw [readItems] at done
    split at done
    · cases done
    all_goals exact absurd ‹item.run _ = _› (refuses _ _)
  · exact done

end

/-! ## Records field by field -/

section

variable {field : α → String → Reader α}
  {advances : ∀ state name, (field state name).Advances} {state next : α}
  {tokens rest : List Token}

/-- Behind a comma the record goes on with the next field. -/
theorem readFields_of_comma
    (done : (readKey >>= field state).run tokens = .ok (next, .comma :: rest)) :
    readFields field advances state tokens = readFields field advances next rest := by
  rw [readFields]
  split
  all_goals
    rename_i reached
    rw [done] at reached
    cases reached
  · rfl
  · contradiction

/-- At the closing bracket it ends. -/
theorem readFields_of_close
    (done : (readKey >>= field state).run tokens = .ok (next, .closeRecord :: rest)) :
    readFields field advances state tokens = .ok (next, rest) := by
  rw [readFields]
  split
  all_goals
    rename_i reached
    rw [done] at reached
    cases reached
  · rfl
  · contradiction

/-- A record with fields does not begin with its closing bracket. -/
theorem readRecord_of_readFields {result : α × List Token}
    (done : readFields field advances state tokens = .ok result) :
    readRecord field advances state tokens = .ok result := by
  rw [readRecord.eq_def]
  split
  · rw [readFields] at done
    split at done
    all_goals
      rename_i reached
      cases reached
    cases done
  · exact done

end

end PathStore.Json
