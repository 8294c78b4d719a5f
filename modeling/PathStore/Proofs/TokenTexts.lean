import Mathlib.Data.List.TakeWhile
import PathStore.Proofs.Grammar

/-!
# What was written where a token is scanned

The converse of scanning a grammatical text: in front of every token there are blanks,
a number was written as a number of the grammar, and a mark of punctuation as its
character.  Nothing needs to be known of what follows.  A reader of lists therefore
finds items with commas between them, if its reader of items finds items.
-/

namespace PathStore.Json

/-! ## Numbers -/

namespace Numeral

open Decimal (isDigit)

variable {negative : Bool} {whole fraction text rest : List Char} {start numeral : Numeral}

theorem digits_takeWhile (some_digit : text.takeWhile isDigit ≠ []) :
    Digits (text.takeWhile isDigit) :=
  ⟨some_digit, fun _ => List.mem_takeWhile_imp⟩

theorem scanPower_written (scanned : scanPower start negative text = .numeral numeral rest) :
    ∃ digits, Digits digits ∧ text = digits ++ rest ∧
      numeral = { start with exponent := some (negative, digits) } := by
  unfold scanPower at scanned
  split at scanned
  · simp [lacksDigit] at scanned
  · rename_i some_digit
    cases scanned
    exact ⟨_, digits_takeWhile some_digit, List.takeWhile_append_dropWhile.symm, rfl⟩

theorem scanExponent_written
    (scanned : scanExponent ⟨negative, whole, fraction, none⟩ text = .numeral numeral rest) :
    ∃ power exponent, Exponent power exponent ∧ text = power ++ rest ∧
      numeral = ⟨negative, whole, fraction, exponent⟩ := by
  unfold scanExponent at scanned
  split at scanned
  · split_ifs at scanned with isMark
    · split at scanned
      · obtain ⟨digits, isDigits, rfl, rfl⟩ := scanPower_written scanned
        exact ⟨_, _, .present isMark .minus isDigits, rfl, rfl⟩
      · obtain ⟨digits, isDigits, rfl, rfl⟩ := scanPower_written scanned
        exact ⟨_, _, .present isMark .plus isDigits, rfl, rfl⟩
      · obtain ⟨digits, isDigits, rfl, rfl⟩ := scanPower_written scanned
        exact ⟨_, _, .present isMark .none isDigits, rfl, rfl⟩
    · cases scanned
      exact ⟨[], none, .absent, rfl, rfl⟩
  · cases scanned
    exact ⟨[], none, .absent, rfl, rfl⟩

theorem scanTail_written
    (scanned : scanTail ⟨negative, whole, [], none⟩ text = .numeral numeral rest) :
    ∃ point fraction power exponent, Fraction point fraction ∧ Exponent power exponent ∧
      text = point ++ (power ++ rest) ∧ numeral = ⟨negative, whole, fraction, exponent⟩ := by
  unfold scanTail at scanned
  split at scanned
  · rename_i tail
    split at scanned
    · simp [lacksDigit] at scanned
    · rename_i some_digit
      obtain ⟨power, exponent, isExponent, left, rfl⟩ := scanExponent_written scanned
      refine ⟨_, _, power, exponent, .present (digits_takeWhile some_digit), isExponent, ?_, rfl⟩
      rw [List.cons_append, ← left, List.takeWhile_append_dropWhile]
  · obtain ⟨power, exponent, isExponent, rfl, rfl⟩ := scanExponent_written scanned
    exact ⟨[], [], power, exponent, .absent, isExponent, rfl, rfl⟩

theorem scanUnsigned_written (scanned : scanUnsigned negative text = .numeral numeral rest) :
    ∃ whole point fraction power exponent, Whole whole ∧ Fraction point fraction ∧
      Exponent power exponent ∧ text = whole ++ (point ++ (power ++ rest)) ∧
      numeral = ⟨negative, whole, fraction, exponent⟩ := by
  unfold scanUnsigned at scanned
  split at scanned
  · -- Behind a zero there is no further digit, so it is all of the whole part.
    rename_i tail
    have tailScanned : scanTail ⟨negative, ['0'], [], none⟩ tail = .numeral numeral rest := by
      split at scanned
      · split_ifs at scanned
        exact scanned
      · exact scanned
    obtain ⟨point, fraction, power, exponent, isFraction, isExponent, rfl, rfl⟩ :=
      scanTail_written tailScanned
    exact ⟨_, _, _, _, _, .inl rfl, isFraction, isExponent, rfl, rfl⟩
  · rename_i notZero
    split at scanned
    · simp [lacksDigit] at scanned
    · rename_i some_digit
      obtain ⟨point, fraction, power, exponent, isFraction, isExponent, left, rfl⟩ :=
        scanTail_written scanned
      have noZero : (text.takeWhile isDigit).head? ≠ some '0' := by
        intro begins
        rw [List.head?_takeWhile, Option.filter_eq_some_iff] at begins
        obtain ⟨tail, rfl⟩ := List.head?_eq_some_iff.mp begins.1
        exact notZero tail rfl
      refine ⟨_, point, fraction, power, exponent, .inr ⟨digits_takeWhile some_digit, noZero⟩,
        isFraction, isExponent, ?_, rfl⟩
      rw [← left, List.takeWhile_append_dropWhile]

/-- What is scanned as a number was written as one. -/
theorem scan_written (scanned : scan text = .numeral numeral rest) :
    ∃ digits, Written digits numeral ∧ text = digits ++ rest := by
  unfold scan at scanned
  split at scanned
  · obtain ⟨whole, point, fraction, power, exponent, isWhole, isFraction, isExponent, rfl, rfl⟩ :=
      scanUnsigned_written scanned
    exact ⟨_, .intro true isWhole isFraction isExponent, by simp⟩
  · obtain ⟨whole, point, fraction, power, exponent, isWhole, isFraction, isExponent, rfl, rfl⟩ :=
      scanUnsigned_written scanned
    exact ⟨_, .intro false isWhole isFraction isExponent, by simp⟩

end Numeral

/-! ## Tokens -/

namespace Token

variable {c : Char} {text rest : List Char} {token : Token} {tokens : List Token}

/-- The character of a mark of punctuation. -/
def character? : Token → Option Char
  | .openList => some '['
  | .closeList => some ']'
  | .openRecord => some '\x7b'
  | .closeRecord => some '\x7d'
  | .colon => some ':'
  | .comma => some ','
  | _ => none

/-- The token is a number. -/
def IsNumber : Token → Prop
  | .number _ => True
  | _ => False

theorem character?_of_mark? (isMark : mark? c = some token) : token.character? = some c := by
  rw [mark?] at isMark
  split_ifs at isMark with same same same same same same
  all_goals
    cases isMark
    rw [same]
    rfl

/-- A word makes its token or breaks off. -/
theorem ofWord_fst (token : Token) (letters text : List Char) :
    (ofWord token letters text).1 = token ∨
      ∃ strict lax, (ofWord token letters text).1 = .brokenScalar strict lax := by
  fun_induction ofWord token letters text with
  | case1 => exact .inl rfl
  | case2 | case4 => exact .inr ⟨_, _, rfl⟩
  | case3 letters c rest ih => exact ih

/-- A token is a mark that its character makes, or a number that is scanned as one, or
it is neither. -/
theorem first_cases (c : Char) (rest : List Char) :
    (∃ token, token.character? = some c ∧ first c rest = (token, rest)) ∨
      (∃ numeral left, Numeral.scan (c :: rest) = .numeral numeral left ∧
        first c rest = (.number numeral, left)) ∨
      (first c rest).1.character? = none ∧ ¬ (first c rest).1.IsNumber := by
  cases marked : mark? c with
  | some mark =>
      exact .inl ⟨mark, character?_of_mark? marked, by simp only [first, marked]⟩
  | none =>
      cases spelled : word? c with
      | some word =>
          refine .inr (.inr ?_)
          simp only [first, marked, spelled]
          rw [word?] at spelled
          obtain same | ⟨strict, lax, same⟩ := ofWord_fst word.1 word.2 rest <;> rw [same]
          · split_ifs at spelled <;> cases spelled <;> exact ⟨rfl, id⟩
          · exact ⟨rfl, id⟩
      | none =>
          simp only [first, marked, spelled]
          split_ifs
          · refine .inr (.inr ?_)
            unfold ofText
            split <;> exact ⟨rfl, id⟩
          · cases scanned : Numeral.scan (c :: rest) with
            | numeral numeral left => exact .inr (.inl ⟨numeral, left, rfl, rfl⟩)
            | broken strict lax => exact .inr (.inr ⟨rfl, id⟩)
          · exact .inr (.inr ⟨rfl, id⟩)

/-- Only the character of a mark makes it. -/
theorem eq_of_first {mark : Char} (isMark : (first c rest).1.character? = some mark) :
    c = mark ∧ (first c rest).2 = rest := by
  obtain ⟨token, isToken, same⟩ | ⟨numeral, left, -, same⟩ | ⟨noMark, -⟩ := first_cases c rest
  · rw [same] at isMark ⊢
    exact ⟨Option.some.inj (isToken.symm.trans isMark), rfl⟩
  · rw [same] at isMark
    cases isMark
  · rw [noMark] at isMark
    cases isMark

/-- Only what is scanned as a number makes one. -/
theorem scan_of_first {numeral : Numeral} (isNumber : (first c rest).1 = .number numeral) :
    Numeral.scan (c :: rest) = .numeral numeral (first c rest).2 := by
  obtain ⟨token, isToken, same⟩ | ⟨found, left, scanned, same⟩ | ⟨-, notNumber⟩ :=
    first_cases c rest
  · rw [same] at isNumber
    rw [show token = _ from isNumber] at isToken
    cases isToken
  · rw [same] at isNumber ⊢
    cases isNumber
    exact scanned
  · rw [isNumber] at notNumber
    exact absurd trivial notNumber

/-- In front of the first token there are blanks. -/
theorem exists_of_scan_eq_cons (scanned : scan text = token :: tokens) :
    ∃ blanks c rest, Blank blanks ∧ text = blanks ++ c :: rest ∧ (first c rest).1 = token ∧
      scan (first c rest).2 = tokens := by
  induction text with
  | nil => simp [scan] at scanned
  | cons c rest ih =>
      rw [scan] at scanned
      split_ifs at scanned with blank
      · obtain ⟨blanks, other, left, areBlank, rfl, isFirst, further⟩ := ih scanned
        exact ⟨c :: blanks, other, left,
          List.forall_mem_cons.mpr ⟨isBlank_iff.mp blank, areBlank⟩, rfl, isFirst, further⟩
      · obtain ⟨isFirst, further⟩ := List.cons.inj scanned
        exact ⟨[], c, rest, by simp [Blank], rfl, isFirst, further⟩

/-- A mark was written as its character. -/
theorem exists_of_scan_mark (isMark : token.character? = some c)
    (scanned : scan text = token :: tokens) :
    ∃ blanks rest, Blank blanks ∧ text = blanks ++ c :: rest ∧ scan rest = tokens := by
  obtain ⟨blanks, begins, rest, areBlank, rfl, rfl, further⟩ := exists_of_scan_eq_cons scanned
  obtain ⟨rfl, left⟩ := eq_of_first isMark
  rw [left] at further
  exact ⟨blanks, rest, areBlank, rfl, further⟩

/-- A number was written as one. -/
theorem exists_of_scan_number {numeral : Numeral}
    (scanned : scan text = .number numeral :: tokens) :
    ∃ blanks digits rest, Blank blanks ∧ Numeral.Written digits numeral ∧
      text = blanks ++ (digits ++ rest) ∧ scan rest = tokens := by
  obtain ⟨blanks, c, rest, areBlank, rfl, isNumber, further⟩ := exists_of_scan_eq_cons scanned
  obtain ⟨digits, written, same⟩ := Numeral.scan_written (scan_of_first isNumber)
  exact ⟨blanks, digits, _, areBlank, written, by rw [same], further⟩

end Token

/-! ## Lists -/

/-- The text begins with what is written so, with or without blanks behind it, and the
tokens are those of what follows. -/
def BeginsWith (written : List Char → Prop) (text : List Char) (tokens : List Token) : Prop :=
  ∃ front rest, text = front ++ rest ∧ Token.scan rest = tokens ∧
    ∀ blanks, Blank blanks → written (front ++ blanks)

/-- In front of a mark stands what is written, up to the character of the mark. -/
theorem BeginsWith.exists_mark {written : List Char → Prop} {text : List Char}
    {tokens : List Token} {token : Token} (begins : BeginsWith written text (token :: tokens))
    {c : Char} (isMark : token.character? = some c) :
    ∃ item rest, written item ∧ text = item ++ c :: rest ∧ Token.scan rest = tokens := by
  obtain ⟨front, behind, rfl, scanned, isWritten⟩ := begins
  obtain ⟨blanks, rest, areBlank, rfl, further⟩ := Token.exists_of_scan_mark isMark scanned
  exact ⟨front ++ blanks, rest, isWritten blanks areBlank, by simp, further⟩

section

variable {α : Type} {written : α → List Char → Prop} {text : List Char} {tokens : List Token}

/-- What the reader takes off a text is a value as it is written, and blanks may stand
behind it. -/
def Reader.TakesOnly (reader : Reader α) (written : α → List Char → Prop) : Prop :=
  ∀ ⦃text : List Char⦄ ⦃value : α⦄ ⦃tokens : List Token⦄,
    reader.run (Token.scan text) = .ok (value, tokens) →
      BeginsWith (written value) text tokens

variable {item : Reader α} {advances : item.Advances} {values : List α}

/-- Items that were read have commas between them, and the closing bracket behind them. -/
theorem exists_of_readItems (takesOnly : item.TakesOnly written)
    (done : readItems item advances (Token.scan text) = .ok (values, tokens)) :
    ∃ items rest, items ≠ [] ∧ List.Forall₂ written values items ∧
      text = List.intercalate [','] items ++ ']' :: rest ∧ Token.scan rest = tokens := by
  -- By induction on the reading, for all texts with these tokens: what stands behind a
  -- comma is scanned from its own start.
  generalize same : Token.scan text = scanned at done
  fun_induction readItems item advances scanned generalizing text values tokens with
  | case1 | case2 | case4 | case6 => cases done
  | case3 _ value tail reached =>
      cases done
      subst same
      obtain ⟨last, rest, isWritten, rfl, further⟩ := (takesOnly reached).exists_mark rfl
      exact ⟨[last], rest, List.cons_ne_nil _ _, .cons isWritten .nil, by simp, further⟩
  | case5 _ value tail reached others left more ih =>
      cases done
      subst same
      obtain ⟨first, behind, isWritten, rfl, further⟩ := (takesOnly reached).exists_mark rfl
      obtain ⟨items, rest, some_item, areWritten, rfl, ended⟩ := ih further more
      obtain ⟨second, items, rfl⟩ := List.exists_cons_of_ne_nil some_item
      refine ⟨first :: second :: items, rest, List.cons_ne_nil _ _, .cons isWritten areWritten, ?_,
        ended⟩
      rw [List.intercalate_cons_cons, List.append_assoc, List.append_assoc, List.singleton_append]

/-- A list that was read has items that are written like the values. -/
theorem exists_of_readList (takesOnly : item.TakesOnly written)
    (done : (readList item advances).run (Token.scan text) = .ok (values, tokens)) :
    ∃ items inside rest, List.Forall₂ written values items ∧ Separated items inside ∧
      text = inside ++ ']' :: rest ∧ Token.scan rest = tokens := by
  simp only [StateT.run] at done
  unfold readList at done
  split at done
  · rename_i tail scanned
    cases done
    obtain ⟨blanks, rest, areBlank, rfl, further⟩ := Token.exists_of_scan_mark rfl scanned
    exact ⟨[], blanks, rest, .nil, areBlank, rfl, further⟩
  · obtain ⟨items, rest, some_item, areWritten, rfl, further⟩ := exists_of_readItems takesOnly done
    obtain ⟨first, items, rfl⟩ := List.exists_cons_of_ne_nil some_item
    exact ⟨_, _, rest, areWritten, rfl, rfl, further⟩

end

end PathStore.Json
