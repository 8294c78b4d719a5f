import PathStore.Decimal.Digits
import PathStore.Json.Error

/-!
# JSON numbers

A numeral is a sign, the digits before the point, the digits behind it, and an
exponent.  A numeral without point and exponent is an integer if it fits into
a word of 64 bits, with a sign bit if it is negative; every other numeral is a
real.  The significand of a real keeps as many digits as fit into a word, and
the power of ten makes up for digits that are dropped before the point.
-/

namespace PathStore.Json

open Decimal (isDigit digitValue valueFrom wordLimit)

/-- A grammatical number. -/
structure Numeral where
  negative : Bool
  /-- The digits before the point. -/
  whole : List Char
  /-- The digits behind the point, none without a point. -/
  fraction : List Char
  /-- The sign and the digits of the exponent. -/
  exponent : Option (Bool × List Char)
deriving DecidableEq, Repr

/-- A scanned number: the rest of the text behind it, or what is wrong with
it.  A number that is cut off is an unexpected end where it has a meaning to
give, and malformed where it is passed over. -/
inductive ScannedNumeral where
  | numeral (numeral : Numeral) (rest : List Char)
  | broken (strict lax : Fault)

namespace Numeral

/-- What is wrong with a number that lacks a digit in front of `rest`. -/
def lacksDigit (rest : List Char) : ScannedNumeral :=
  .broken (if rest.isEmpty then .unexpectedEnd else .malformed) .malformed

/-- Scans the digits of an exponent. -/
def scanPower (numeral : Numeral) (negative : Bool) (text : List Char) : ScannedNumeral :=
  match text.takeWhile isDigit with
  | [] => lacksDigit text
  | digits =>
    .numeral { numeral with exponent := some (negative, digits) } (text.dropWhile isDigit)

/-- Scans an exponent, if there is one. -/
def scanExponent (numeral : Numeral) : List Char → ScannedNumeral
  | mark :: rest =>
    if mark = 'e' ∨ mark = 'E' then
      match rest with
      | '-' :: rest => scanPower numeral true rest
      | '+' :: rest => scanPower numeral false rest
      | rest => scanPower numeral false rest
    else .numeral numeral (mark :: rest)
  | [] => .numeral numeral []

/-- Scans the part behind the whole digits. -/
def scanTail (numeral : Numeral) : List Char → ScannedNumeral
  | '.' :: rest =>
    match rest.takeWhile isDigit with
    | [] => lacksDigit rest
    | digits => scanExponent { numeral with fraction := digits } (rest.dropWhile isDigit)
  | rest => scanExponent numeral rest

/-- Scans a number from behind its sign.  Only zero itself begins with the
digit zero. -/
def scanUnsigned (negative : Bool) : List Char → ScannedNumeral
  | '0' :: rest =>
    match rest with
    | next :: _ =>
      if isDigit next then .broken .malformed .malformed
      else scanTail ⟨negative, ['0'], [], none⟩ rest
    | [] => scanTail ⟨negative, ['0'], [], none⟩ rest
  | text =>
    match text.takeWhile isDigit with
    | [] => lacksDigit text
    | digits => scanTail ⟨negative, digits, [], none⟩ (text.dropWhile isDigit)

/-- Scans a number. -/
def scan : List Char → ScannedNumeral
  | '-' :: rest => scanUnsigned true rest
  | text => scanUnsigned false text

/-- The significand after as many digits as keep it in a word, and the
digits that are left. -/
def absorb : Nat → List Char → Nat × List Char
  | significand, [] => (significand, [])
  | significand, digit :: rest =>
    if 10 * significand + digitValue digit < wordLimit then
      absorb (10 * significand + digitValue digit) rest
    else (significand, digit :: rest)

/-- The power of ten that an exponent spells. -/
def power (numeral : Numeral) : Int :=
  match numeral.exponent with
  | none => 0
  | some (true, digits) => -(valueFrom 0 digits : Int)
  | some (false, digits) => valueFrom 0 digits

/-- The magnitude of a numeral, unless it is out of range. -/
def magnitude? (numeral : Numeral) : Option Decimal.Magnitude :=
  let (head, dropped) := absorb 0 numeral.whole
  let (significand, ignored) := absorb head numeral.fraction
  let behindPoint : Int := numeral.fraction.length - ignored.length
  Decimal.Magnitude.ofDecimal significand (dropped.length - behindPoint + numeral.power)

/-- What a numeral stands for, unless it is out of range. -/
def shape? (numeral : Numeral) : Option Shape :=
  let value := valueFrom 0 numeral.whole
  if numeral.fraction.isEmpty ∧ numeral.exponent.isNone
      ∧ (if numeral.negative then 1 ≤ value ∧ 2 * value ≤ wordLimit else value < wordLimit) then
    some (.integer (if numeral.negative then -(value : Int) else value))
  else numeral.magnitude?.map (.real numeral.negative)

theorem length_dropWhile_le (keep : Char → Bool) (text : List Char) :
    (text.dropWhile keep).length ≤ text.length :=
  (List.dropWhile_sublist keep).length_le

theorem length_dropWhile_lt {keep : Char → Bool} {text : List Char}
    (taken : text.takeWhile keep ≠ []) : (text.dropWhile keep).length < text.length := by
  cases text with
  | nil => simp at taken
  | cons c rest =>
    by_cases kept : keep c
    · rw [List.dropWhile_cons_of_pos kept, List.length_cons]
      exact Nat.lt_succ_of_le (length_dropWhile_le keep rest)
    · simp [kept] at taken

theorem scanPower_length {start numeral : Numeral} {negative : Bool} {text rest : List Char}
    (scanned : scanPower start negative text = .numeral numeral rest) :
    rest.length < text.length := by
  unfold scanPower lacksDigit at scanned
  split at scanned
  · cases scanned
  · rename_i taken
    cases scanned
    exact length_dropWhile_lt taken

theorem scanExponent_length {start numeral : Numeral} {text rest : List Char}
    (scanned : scanExponent start text = .numeral numeral rest) :
    rest.length ≤ text.length := by
  cases text with
  | nil => cases scanned; exact Nat.le_refl _
  | cons mark tail =>
    simp only [scanExponent] at scanned
    split at scanned
    · split at scanned
      all_goals
        have := scanPower_length scanned
        simp only [List.length_cons] at *
        omega
    · cases scanned
      exact Nat.le_refl _

theorem scanTail_length {start numeral : Numeral} {text rest : List Char}
    (scanned : scanTail start text = .numeral numeral rest) :
    rest.length ≤ text.length := by
  unfold scanTail lacksDigit at scanned
  split at scanned
  · rename_i tail
    split at scanned
    · cases scanned
    · have := scanExponent_length scanned
      have := length_dropWhile_le isDigit tail
      simp only [List.length_cons]
      omega
  · exact scanExponent_length scanned

theorem scanUnsigned_length {negative : Bool} {numeral : Numeral} {text rest : List Char}
    (scanned : scanUnsigned negative text = .numeral numeral rest) :
    rest.length < text.length := by
  unfold scanUnsigned lacksDigit at scanned
  split at scanned
  · split at scanned
    · split at scanned
      · cases scanned
      · have := scanTail_length scanned
        simp only [List.length_cons] at *
        omega
    · have := scanTail_length scanned
      simp only [List.length_cons] at *
      omega
  · split at scanned
    · cases scanned
    · rename_i taken
      have := scanTail_length scanned
      have := length_dropWhile_lt taken
      omega

/-- A number is at least one character long. -/
theorem scan_length {numeral : Numeral} {text rest : List Char}
    (scanned : scan text = .numeral numeral rest) : rest.length < text.length := by
  unfold scan at scanned
  split at scanned
  · have := scanUnsigned_length scanned
    simp only [List.length_cons] at *
    omega
  · exact scanUnsigned_length scanned

end Numeral

end PathStore.Json
