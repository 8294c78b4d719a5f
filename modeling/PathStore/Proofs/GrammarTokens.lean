import PathStore.Proofs.Grammar
import PathStore.Proofs.WrittenStrings
import Mathlib.Data.List.TakeWhile

/-!
# Tokens of grammatical texts

Blanks make no token, and every string, number and word makes one, the same in front
of whatever follows.  Only a number needs something behind it that does not go on
with it; blanks, commas, colons and brackets do not, and nothing else stands behind a
number in a grammatical text.
-/

namespace PathStore.Json

/-! ## What may follow -/

/-- The text does not go on with a number in front of it. -/
def EndsNumber (rest : List Char) : Prop :=
  ∀ c ∈ rest.head?, Decimal.isDigit c = false ∧ c ≠ '.' ∧ c ≠ 'e' ∧ c ≠ 'E'

theorem endsNumber_nil : EndsNumber [] := by simp [EndsNumber]

theorem endsNumber_cons {c : Char}
    (ends : Decimal.isDigit c = false ∧ c ≠ '.' ∧ c ≠ 'e' ∧ c ≠ 'E') (rest : List Char) :
    EndsNumber (c :: rest) := by
  rintro other ⟨⟩
  exact ends

theorem Blank.ends {blanks : List Char} (blank : Blank blanks) {rest : List Char}
    (ends : EndsNumber rest) : EndsNumber (blanks ++ rest) := by
  cases blanks with
  | nil => exact ends
  | cons c blanks =>
      obtain rfl | rfl | rfl | rfl := blank c List.mem_cons_self
      all_goals
        rw [List.cons_append]
        exact endsNumber_cons (by decide) _

/-! ## Blanks -/

theorem Blank.scan {blanks : List Char} (blank : Blank blanks) (rest : List Char) :
    Token.scan (blanks ++ rest) = Token.scan rest := by
  induction blanks with
  | nil => rfl
  | cons c blanks ih =>
      obtain ⟨isBlank, blank⟩ := List.forall_mem_cons.mp blank
      rw [List.cons_append, Token.scan, if_pos (Token.isBlank_iff.mpr isBlank), ih blank]

/-- A text is scanned as its core is, in front of blanks and what follows. -/
theorem Spaced.exists_scan {core text : List Char} (spaced : Spaced core text)
    {rest : List Char} (ends : EndsNumber rest) :
    ∃ behind, EndsNumber behind ∧ Token.scan (text ++ rest) = Token.scan (core ++ behind) ∧
      Token.scan behind = Token.scan rest := by
  obtain ⟨before, behind, blankBefore, blankBehind, rfl⟩ := spaced
  refine ⟨behind ++ rest, blankBehind.ends ends, ?_, blankBehind.scan rest⟩
  rw [List.append_assoc, List.append_assoc, blankBefore.scan]

theorem Spaced.refl (core : List Char) : Spaced core core :=
  ⟨[], [], by simp [Blank], by simp [Blank], (List.append_nil core).symm⟩

/-! ## Commas -/

theorem Separated.eq_intercalate {first inside : List Char} {more : List (List Char)}
    (separated : Separated (first :: more) inside) :
    inside = List.intercalate [','] (first :: more) :=
  separated

/-- Behind the first item stand the others, each behind a comma. -/
theorem intercalate_comma (first : List Char) (more : List (List Char)) :
    List.intercalate [','] (first :: more) = first ++ more.flatMap (',' :: ·) := by
  induction more generalizing first with
  | nil => rw [List.intercalate_singleton, List.flatMap_nil, List.append_nil]
  | cons second more ih =>
      rw [List.intercalate_cons_cons, ih, List.flatMap_cons, List.append_assoc,
        List.singleton_append, List.cons_append]

/-- The first of several items stands in front of a comma and the others. -/
theorem intercalate_comma_append (first second : List Char) (more : List (List Char))
    (rest : List Char) :
    List.intercalate [','] (first :: second :: more) ++ rest =
      first ++ ',' :: (List.intercalate [','] (second :: more) ++ rest) := by
  rw [List.intercalate_cons_cons, List.append_assoc, List.append_assoc, List.singleton_append]

theorem endsNumber_comma (rest : List Char) : EndsNumber (',' :: rest) :=
  endsNumber_cons (by decide) rest

theorem scan_comma (rest : List Char) : Token.scan (',' :: rest) = .comma :: Token.scan rest :=
  Token.scan_mark rfl rest

/-! ## Strings -/

namespace Text

/-- The character may be written as it is. -/
def isPlain (c : Char) : Bool :=
  c ≠ '"' && c ≠ '\\' && 32 ≤ c.toNat

theorem Written.of_plain {chars : List Char} (plain : chars.all isPlain = true) :
    Written chars (chars.map .char) := by
  induction chars with
  | nil => exact .nil
  | cons c chars ih =>
      simp only [List.all_cons, isPlain, Bool.and_eq_true, decide_eq_true_eq] at plain
      obtain ⟨⟨⟨notQuote, notBackslash⟩, printed⟩, plain⟩ := plain
      exact .plain notQuote notBackslash printed (ih plain)

theorem Denotes.of_chars (chars : List Char) : Denotes (chars.map .char) chars := by
  induction chars with
  | nil => exact .nil
  | cons c chars ih => exact .char ih

theorem shortEscape?_of_mem {letter c : Char} (isEscape : (letter, c) ∈ shortEscapes) :
    shortEscape? letter = some c ∧ letter ≠ 'u' := by
  simp only [shortEscapes, List.mem_cons, Prod.mk.injEq, List.not_mem_nil, or_false] at isEscape
  rcases isEscape with ⟨rfl, rfl⟩ | ⟨rfl, rfl⟩ | ⟨rfl, rfl⟩ | ⟨rfl, rfl⟩ | ⟨rfl, rfl⟩ | ⟨rfl, rfl⟩ |
    ⟨rfl, rfl⟩ | ⟨rfl, rfl⟩
  all_goals decide

/-- What is written between the quotes is scanned as its pieces. -/
theorem Written.scan {inside : List Char} {pieces : List Piece} (written : Written inside pieces)
    (rest : List Char) : Text.scan (inside ++ '"' :: rest) = ⟨pieces, .ok rest⟩ := by
  induction written with
  | nil => rfl
  | plain notQuote notBackslash printed _ ih =>
      rw [List.cons_append, scan_plain notQuote notBackslash (Nat.not_lt.mpr printed), ih]
      rfl
  | short isEscape _ ih =>
      obtain ⟨spelled, notUnit⟩ := shortEscape?_of_mem isEscape
      simp [Text.scan, spelled, notUnit, ih, ScannedText.cons]
  | numbered spelled _ ih => simp only [List.cons_append, Text.scan, spelled, ih, ScannedText.cons]

/-- The two halves of a larger character stand for it. -/
theorem meaning?_pair {c : Char} (large : 0x10000 ≤ c.toNat) (pieces : List Piece) :
    meaning? (.unit (0xd800 + (c.toNat - 0x10000) / 0x400) ::
        .unit (0xdc00 + (c.toNat - 0x10000) % 0x400) :: pieces) =
      (meaning? pieces).map (c :: ·) := by
  have valid : c.toNat < 0xd800 ∨ 0xdfff < c.toNat ∧ c.toNat < 0x110000 := c.valid
  have leading : isLeading (0xd800 + (c.toNat - 0x10000) / 0x400) = true := by
    simp only [isLeading, Bool.and_eq_true, decide_eq_true_eq]
    omega
  have notTrailing : isTrailing (0xd800 + (c.toNat - 0x10000) / 0x400) = false := by
    simp only [isTrailing, Bool.and_eq_false_iff, decide_eq_false_iff_not]
    omega
  have trailing : isTrailing (0xdc00 + (c.toNat - 0x10000) % 0x400) = true := by
    simp only [isTrailing, Bool.and_eq_true, decide_eq_true_eq]
    omega
  have joined : pairedChar (0xd800 + (c.toNat - 0x10000) / 0x400)
      (0xdc00 + (c.toNat - 0x10000) % 0x400) = c := by
    rw [pairedChar]
    have whole : (0xd800 + (c.toNat - 0x10000) / 0x400 - 0xd800) * 0x400 +
        (0xdc00 + (c.toNat - 0x10000) % 0x400 - 0xdc00) + 0x10000 = c.toNat := by omega
    rw [whole, Char.ofNat_toNat]
  rw [meaning?.eq_def]
  simp [notTrailing, leading, trailing, joined]

/-- Pieces are understood as the characters that they stand for. -/
theorem Denotes.meaning? {pieces : List Piece} {chars : List Char}
    (denotes : Denotes pieces chars) : Text.meaning? pieces = some chars := by
  induction denotes with
  | nil => rfl
  | char _ ih => rw [means_char, ih, Option.map_some]
  | unit small _ ih => rw [means_unit small, ih, Option.map_some]
  | pair large _ ih => rw [meaning?_pair large, ih, Option.map_some]

theorem Denotes.string? {pieces : List Piece} {value : String}
    (denotes : Denotes pieces value.toList) : Text.string? pieces = some value := by
  rw [Text.string?, denotes.meaning?, Option.map_some, String.ofList_toList]

/-- Pieces stand for one list of characters only. -/
theorem Denotes.unique {pieces : List Piece} {first second : List Char}
    (denotes : Denotes pieces first) (others : Denotes pieces second) : first = second :=
  Option.some.inj (denotes.meaning?.symm.trans others.meaning?)

end Text

theorem Member.not_isNamed_of_ne {chars value : List Char} {name : String}
    (differs : chars ≠ name.toList) : ¬ (⟨chars.map .char, value⟩ : Member).IsNamed name :=
  fun isNamed => differs (Text.Denotes.unique (.of_chars chars) isNamed)

theorem scan_literal {inside : List Char} {pieces : List Piece}
    (written : Text.Written inside pieces) (rest : List Char) :
    Token.scan ('"' :: (inside ++ ['"']) ++ rest) = .text pieces :: Token.scan rest := by
  have quoted : Token.first '"' (inside ++ '"' :: rest) = (.text pieces, rest) := by
    change Token.ofText _ = _
    rw [written.scan, Token.ofText]
  rw [List.cons_append, List.append_assoc, List.singleton_append, Token.scan, quoted]
  rfl

theorem Literal.of_plain {chars : List Char} (plain : chars.all Text.isPlain = true) :
    Literal ('"' :: (chars ++ ['"'])) (chars.map .char) :=
  ⟨chars, .of_plain plain, .refl _⟩

theorem Says.of_plain {value : String} (plain : value.toList.all Text.isPlain = true) :
    Says value ('"' :: (value.toList ++ ['"'])) :=
  ⟨_, .of_plain plain, .of_chars _⟩

/-- A string is scanned as the token of its pieces. -/
theorem Literal.scan {text : List Char} {pieces : List Piece} (literal : Literal text pieces)
    {rest : List Char} (ends : EndsNumber rest) :
    Token.scan (text ++ rest) = .text pieces :: Token.scan rest := by
  obtain ⟨inside, written, spaced⟩ := literal
  obtain ⟨behind, -, scanned, same⟩ := spaced.exists_scan ends
  rw [scanned, scan_literal written, same]

/-! ## Numbers -/

namespace Numeral

open Decimal (isDigit)

/-- The text does not go on with digits in front of it. -/
def NoDigit (rest : List Char) : Prop :=
  ∀ c ∈ rest.head?, isDigit c = false

section

variable {digits rest : List Char}

theorem takeWhile_digits (areDigits : ∀ c ∈ digits, isDigit c = true) (ended : NoDigit rest) :
    (digits ++ rest).takeWhile isDigit = digits := by
  rw [List.takeWhile_append_of_pos areDigits]
  cases rest with
  | nil => simp
  | cons c rest => simp [ended c rfl]

theorem dropWhile_digits (areDigits : ∀ c ∈ digits, isDigit c = true) (ended : NoDigit rest) :
    (digits ++ rest).dropWhile isDigit = rest := by
  rw [List.dropWhile_append_of_pos areDigits]
  cases rest with
  | nil => rfl
  | cons c rest => rw [List.dropWhile_cons_of_neg (by simp [ended c rfl])]

theorem Digits.exists_cons (isDigits : Digits digits) :
    ∃ digit more, digits = digit :: more ∧ isDigit digit = true := by
  obtain ⟨digit, more, rfl⟩ := List.exists_cons_of_ne_nil isDigits.1
  exact ⟨digit, more, rfl, isDigits.2 digit List.mem_cons_self⟩

end

variable {rest : List Char}

theorem scanPower_digits {digits : List Char} (isDigits : Digits digits) (ended : NoDigit rest)
    (start : Numeral) (negative : Bool) :
    scanPower start negative (digits ++ rest) =
      .numeral { start with exponent := some (negative, digits) } rest := by
  rw [scanPower, takeWhile_digits isDigits.2 ended, dropWhile_digits isDigits.2 ended]
  obtain ⟨digit, more, rfl, -⟩ := isDigits.exists_cons
  rfl

theorem Exponent.scan {power : List Char} {exponent : Option (Bool × List Char)}
    (isExponent : Exponent power exponent) (ends : EndsNumber rest) (negative : Bool)
    (whole fraction : List Char) :
    scanExponent ⟨negative, whole, fraction, none⟩ (power ++ rest) =
      .numeral ⟨negative, whole, fraction, exponent⟩ rest := by
  cases isExponent with
  | absent =>
      -- Only here does it matter that what follows does not begin with `e`.
      cases rest with
      | nil => rfl
      | cons c rest => simp [scanExponent, ends c rfl]
  | present isMark isSign isDigits =>
      have ended : NoDigit rest := fun c isHead => (ends c isHead).1
      have scanned := scanPower_digits isDigits ended ⟨negative, whole, fraction, none⟩
      rw [List.cons_append, List.append_assoc]
      cases isSign with
      | plus => simp [scanExponent, isMark, scanned]
      | minus => simp [scanExponent, isMark, scanned]
      | none =>
          obtain ⟨digit, more, rfl, areDigits⟩ := isDigits.exists_cons
          have notMinus : digit ≠ '-' := by rintro rfl; cases areDigits
          have notPlus : digit ≠ '+' := by rintro rfl; cases areDigits
          simpa [scanExponent, isMark, notMinus, notPlus] using scanned false

theorem Exponent.head {power : List Char} {exponent : Option (Bool × List Char)}
    (isExponent : Exponent power exponent) (ends : EndsNumber rest) :
    ∀ c ∈ (power ++ rest).head?, isDigit c = false ∧ c ≠ '.' := by
  cases isExponent with
  | absent => exact fun c isHead => ⟨(ends c isHead).1, (ends c isHead).2.1⟩
  | present isMark => obtain rfl | rfl := isMark <;> simp [isDigit]

theorem Fraction.scan {point fraction power : List Char} {exponent : Option (Bool × List Char)}
    (isFraction : Fraction point fraction) (isExponent : Exponent power exponent)
    (ends : EndsNumber rest) (negative : Bool) (whole : List Char) :
    scanTail ⟨negative, whole, [], none⟩ (point ++ (power ++ rest)) =
      .numeral ⟨negative, whole, fraction, exponent⟩ rest := by
  have head := isExponent.head ends
  rw [← isExponent.scan ends negative whole fraction]
  cases isFraction with
  | absent =>
      rw [List.nil_append, scanTail.eq_def]
      split
      · rename_i tail begins
        exact absurd rfl (head '.' (by rw [begins]; rfl)).2
      · rfl
  | present isDigits =>
      have ended : NoDigit (power ++ rest) := fun c isHead => (head c isHead).1
      rw [List.cons_append, scanTail, takeWhile_digits isDigits.2 ended,
        dropWhile_digits isDigits.2 ended]
      obtain ⟨digit, more, rfl, -⟩ := isDigits.exists_cons
      rfl

theorem Fraction.noDigit {point fraction power : List Char} {exponent : Option (Bool × List Char)}
    (isFraction : Fraction point fraction) (isExponent : Exponent power exponent)
    (ends : EndsNumber rest) : NoDigit (point ++ (power ++ rest)) := by
  cases isFraction with
  | absent => exact fun c isHead => (isExponent.head ends c isHead).1
  | present => simp [NoDigit, isDigit]

theorem Whole.scan {whole point fraction power : List Char} {exponent : Option (Bool × List Char)}
    (isWhole : Whole whole) (isFraction : Fraction point fraction)
    (isExponent : Exponent power exponent) (ends : EndsNumber rest) (negative : Bool) :
    scanUnsigned negative (whole ++ (point ++ (power ++ rest))) =
      .numeral ⟨negative, whole, fraction, exponent⟩ rest := by
  have ended := isFraction.noDigit isExponent ends
  rw [← isFraction.scan isExponent ends negative whole]
  obtain rfl | ⟨isDigits, notZero⟩ := isWhole
  · generalize point ++ (power ++ rest) = behind at ended ⊢
    cases behind with
    | nil => rfl
    | cons c behind => simp [scanUnsigned, ended c rfl]
  · rw [scanUnsigned.eq_def]
    split
    · rename_i tail begins
      obtain ⟨digit, more, rfl, -⟩ := isDigits.exists_cons
      rw [List.cons_append, List.cons.injEq] at begins
      exact absurd (congrArg some begins.1) notZero
    · rw [takeWhile_digits isDigits.2 ended, dropWhile_digits isDigits.2 ended]
      obtain ⟨digit, more, rfl, -⟩ := isDigits.exists_cons
      rfl

theorem Whole.exists_cons {whole : List Char} (isWhole : Whole whole) :
    ∃ digit more, whole = digit :: more ∧ isDigit digit = true := by
  obtain rfl | ⟨isDigits, -⟩ := isWhole
  · exact ⟨'0', [], rfl, by decide⟩
  · exact isDigits.exists_cons

/-- A number is scanned with its parts. -/
theorem Written.scan {digits : List Char} {numeral : Numeral} (written : Written digits numeral)
    (ends : EndsNumber rest) : Numeral.scan (digits ++ rest) = .numeral numeral rest := by
  obtain @⟨negative, whole, point, fraction, power, exponent, isWhole, isFraction, isExponent⟩ :=
    written
  rw [List.append_assoc, List.append_assoc, List.append_assoc,
    ← isWhole.scan isFraction isExponent ends negative]
  cases negative with
  | true => rfl
  | false =>
      obtain ⟨digit, more, rfl, isDigit⟩ := isWhole.exists_cons
      rw [Numeral.scan.eq_def]
      split
      · simp_all [Decimal.isDigit]
      · rfl

theorem Written.exists_cons {digits : List Char} {numeral : Numeral}
    (written : Written digits numeral) :
    ∃ c more, digits = c :: more ∧ (c = '-' ∨ isDigit c = true) := by
  obtain @⟨negative, whole, point, fraction, power, exponent, isWhole, -, -⟩ := written
  obtain ⟨digit, more, rfl, isDigit⟩ := isWhole.exists_cons
  cases negative with
  | true => exact ⟨_, _, rfl, .inl rfl⟩
  | false => exact ⟨_, _, rfl, .inr isDigit⟩

end Numeral

/-- A number begins with a sign or a digit, and nothing else does. -/
theorem Token.first_numeral {c : Char} (begins : c = '-' ∨ Decimal.isDigit c = true)
    (rest : List Char) :
    Token.isBlank c = false ∧ Token.first c rest = Token.ofNumeral (Numeral.scan (c :: rest)) := by
  have differs {other : Char} (notMinus : other ≠ '-') (notDigit : Decimal.isDigit other = false) :
      c ≠ other := by
    rintro rfl
    simp [notMinus, notDigit] at begins
  have noMark : mark? c = none := by simp [mark?, differs, Decimal.isDigit]
  have noWord : word? c = none := by simp [word?, differs, Decimal.isDigit]
  have notQuote : c ≠ '"' := differs (by decide) (by decide)
  refine ⟨by simp [isBlank, differs, Decimal.isDigit], ?_⟩
  rw [first, noMark, noWord]
  simp only [notQuote, begins, if_true, if_false]

/-- A number is scanned as the token of its parts, if what follows does not go on
with it. -/
theorem Numeral.Written.scan_token {digits : List Char} {numeral : Numeral}
    (written : Numeral.Written digits numeral) {rest : List Char} (ends : EndsNumber rest) :
    Token.scan (digits ++ rest) = .number numeral :: Token.scan rest := by
  obtain ⟨c, more, rfl, begins⟩ := written.exists_cons
  have scanned := written.scan ends
  obtain ⟨notBlank, first⟩ := Token.first_numeral begins (more ++ rest)
  rw [List.cons_append] at scanned ⊢
  rw [Token.scan, notBlank, first, scanned]
  rfl

theorem Numeral.Whole.of_digit {c : Char} (isDigit : Decimal.isDigit c = true) :
    Numeral.Whole [c] := by
  by_cases zero : c = '0'
  · exact .inl (by rw [zero])
  · exact .inr ⟨⟨List.cons_ne_nil _ _, by simpa using isDigit⟩, by simpa using zero⟩

/-- Whole digits are a number on their own. -/
theorem Numeral.Written.of_whole {whole : List Char} (isWhole : Numeral.Whole whole) :
    Numeral.Written whole ⟨false, whole, [], none⟩ := by
  simpa using Numeral.Written.intro false isWhole .absent .absent

/-! ## Words -/

/-- A word is scanned as its token. -/
theorem Word.scan {word : List Char} (isWord : Word word) :
    ∃ token : Token, (token = .null ∨ ∃ value, token = .bool value) ∧
      ∀ rest, Token.scan (word ++ rest) = token :: Token.scan rest := by
  cases isWord with
  | null =>
      refine ⟨.null, .inl rfl, fun rest => ?_⟩
      rw [List.cons_append, Token.scan]
      rfl
  | true =>
      refine ⟨.bool Bool.true, .inr ⟨_, rfl⟩, fun rest => ?_⟩
      rw [List.cons_append, Token.scan]
      rfl
  | false =>
      refine ⟨.bool Bool.false, .inr ⟨_, rfl⟩, fun rest => ?_⟩
      rw [List.cons_append, Token.scan]
      rfl

end PathStore.Json
