import PathStore.Proofs.StrayDigits
import PathStore.Proofs.TypedPaths

/-!
# Paths as text lose nothing

Typed digits are read one by one, and the first character that is none is named by
its place among the characters.  A path that is shown is read off its digits and
the `T` behind them.  For symbols beyond the terminator the digits do not tell
which one it was, but the escapes do: each of them takes four characters, so a line
is cut into its escapes in one way only.
-/

namespace PathStore.Path

/-! ## Typed digits -/

/-- Typed text is refused for its first character that is no digit. -/
theorem readText_eq_error_iff {text : String} {error : DigitError} :
    readText text = .error error ↔
      ∃ before c after, text.toList = before ++ c :: after ∧ (∀ d ∈ before, Nibble.IsDigit d) ∧
        ¬ Nibble.IsDigit c ∧ error = ⟨⟨c, before.length⟩⟩ := by
  obtain ⟨stray⟩ := error
  have reading : readText text = .error ⟨stray⟩ ↔
      Nibble.readDigits 0 text.toList = .error stray := by
    rw [readText]
    cases Nibble.readDigits 0 text.toList <;> simp
  rw [reading, Nibble.readDigits_eq_error_iff]
  constructor
  · rintro ⟨before, after, split, digits, notDigit, place⟩
    rw [Nat.zero_add] at place
    exact ⟨before, stray.char, after, split, digits, notDigit, by rw [← place]⟩
  · rintro ⟨before, c, after, split, digits, notDigit, ⟨⟩⟩
    exact ⟨before, after, split, digits, notDigit, (Nat.zero_add _).symm⟩

/-- Exactly the texts that hold digits only are read. -/
theorem exists_readText_eq_ok_iff {text : String} :
    (∃ nibbles, readText text = .ok nibbles) ↔ ∀ c ∈ text.toList, Nibble.IsDigit c := by
  simp only [readText_eq_ok_iff, Nibble.forall_isDigit_iff]

/-! ## Escapes -/

theorem symbolEscape_injective : Function.Injective symbolEscape := by
  intro first second same
  simp only [symbolEscape, List.cons.injEq, and_true, true_and] at same
  rw [← Nibble.byte_high_low first, Nibble.digit_injective same.1, Nibble.digit_injective same.2,
    Nibble.byte_high_low]

/-- Escapes all have the same width, so those of a list determine the list. -/
theorem eq_of_flatMap_symbolEscape_eq {first second : List UInt8}
    (same : first.flatMap symbolEscape = second.flatMap symbolEscape) : first = second := by
  induction first generalizing second with
  | nil =>
      cases second with
      | nil => rfl
      | cons value rest => simp [symbolEscape] at same
  | cons value rest ih =>
      cases second with
      | nil => simp [symbolEscape] at same
      | cons other others =>
          rw [List.flatMap_cons, List.flatMap_cons] at same
          obtain ⟨front, back⟩ := List.append_inj same rfl
          rw [symbolEscape_injective front, ih back]

theorem escapes_injective : Function.Injective escapes := by
  intro first second same
  apply eq_of_flatMap_symbolEscape_eq
  have characters := congrArg String.toList same
  rwa [escapes, escapes, String.toList_ofList, String.toList_ofList] at characters

theorem escapes_append (first second : List UInt8) :
    escapes (first ++ second) = escapes first ++ escapes second := by
  simp only [escapes, List.flatMap_append, String.ofList_append]

/-- The words in front of the blank are as long as each other, so the escapes behind
it are the same. -/
theorem render_injective : Function.Injective render := by
  intro first second same
  have words : first.map symbolDigit = second.map symbolDigit := by
    rw [← takeWhile_render_append first "", ← takeWhile_render_append second "", same]
  rw [render, render, words] at same
  have characters := congrArg String.toList same
  simp only [String.toList_append] at characters
  exact escapes_injective (String.toList_injective (List.append_cancel_left characters))

/-! ## The main result -/

/-- No text of a path loses what it was made from.

* Exactly the texts that hold hexadecimal digits only are read.  Every character
  gives one nibble, the one whose digit it is in either case.  Every other text is
  refused, and the failure names the first character that is no digit and the number
  of characters in front of it.
* The line that shows nibbles, with or without a terminator behind them, tells by a
  `T` in front of the blank whether there is one, and what is left of the word there
  is read as the nibbles.
* Different lists of symbols are shown by different lines, and by different escapes,
  whatever the symbols are.  The escapes of two lists follow each other. -/
theorem texts_of_paths_lossless :
    (∀ text, (∃ nibbles, readText text = .ok nibbles) ↔
      ∀ c ∈ text.toList, Nibble.IsDigit c) ∧
    (∀ text nibbles, readText text = .ok nibbles →
      nibbles.length = text.toList.length ∧
        nibbles.map Nibble.digit = text.toList.map Char.toLower ∧
        ∀ value ∈ nibbles.map symbol, value < 16) ∧
    (∀ text, (¬ ∀ c ∈ text.toList, Nibble.IsDigit c) →
      ∃ before c after, text.toList = before ++ c :: after ∧
        (∀ d ∈ before, Nibble.IsDigit d) ∧ ¬ Nibble.IsDigit c ∧
        ∃ error, readText text = .error error ∧ error.stray = ⟨c, before.length⟩ ∧
          error.message = "invalid nibble " ++ Text.quotedChar c ++ " at position "
            ++ toString before.length) ∧
    (∀ (data : List UInt8) (terminated : Bool), (∀ value ∈ data, value < 16) →
      ∃ digits nibbles,
        retyped (render (data ++ if terminated then [terminator] else [])) =
          (digits, terminated) ∧
        readText digits = .ok nibbles ∧ nibbles.map symbol = data) ∧
    Function.Injective render ∧
    Function.Injective escapes ∧
    ∀ first second, escapes (first ++ second) = escapes first ++ escapes second := by
  refine ⟨fun _ => exists_readText_eq_ok_iff, ?read, ?refused, ?shown, render_injective,
    escapes_injective, escapes_append⟩
  case read =>
    intro text nibbles read
    have spelled := readText_eq_ok_iff.mp read
    have length_eq := congrArg List.length spelled
    rw [List.length_map, List.length_map] at length_eq
    refine ⟨length_eq.symm, spelled.symm, fun value member => ?_⟩
    obtain ⟨n, _, rfl⟩ := List.mem_map.mp member
    exact symbol_lt_terminator n
  case refused =>
    intro text notDigits
    cases read : readText text with
    | ok nibbles => exact absurd (exists_readText_eq_ok_iff.mp ⟨nibbles, read⟩) notDigits
    | error error =>
        obtain ⟨before, c, after, split, digits, notDigit, rfl⟩ := readText_eq_error_iff.mp read
        exact ⟨before, c, after, split, digits, notDigit, _, rfl, rfl, rfl⟩
  case shown =>
    intro data terminated small
    obtain ⟨nibbles, rfl⟩ := exists_map_symbol_eq small
    have line := retyped_render_append ⟨nibbles, terminated⟩ ""
    rw [String.append_empty] at line
    refine ⟨_, nibbles, line, ?_, rfl⟩
    rw [readText_eq_ok_iff, String.toList_ofList, Nibble.map_toLower_digit]

/-- Digits of both cases, a text with two characters beyond seven bits, of which the
first is the third character, and a closed path that is read off its line. -/
theorem texts_of_paths_lossless_accented :
    readText "1Fb" = .ok [1, 15, 11] ∧
    ([1, 15, 11] : List Nibble).map Nibble.digit = "1Fb".toList.map Char.toLower ∧
    (¬ ∀ c ∈ "0aéfé".toList, Nibble.IsDigit c) ∧
    (∃ error, readText "0aéfé" = .error error ∧ error.stray = ⟨'é', 2⟩ ∧
      error.message = "invalid nibble " ++ Text.quotedChar 'é' ++ " at position " ++ toString 2) ∧
    ∃ nibbles, retyped (render [0, 15, 16]) = ("0f", true) ∧ readText "0f" = .ok nibbles ∧
      nibbles.map symbol = [0, 15] := by
  obtain ⟨accepts, read, refused, shown, -⟩ := texts_of_paths_lossless
  have typed : readText "1Fb" = .ok [1, 15, 11] := rfl
  have accented : readText "0aéfé" = .error ⟨⟨'é', 2⟩⟩ := rfl
  have line : retyped (render [0, 15, 16]) = ("0f", true) := by decide
  have notDigits : ¬ ∀ c ∈ "0aéfé".toList, Nibble.IsDigit c := by
    intro digits
    obtain ⟨nibbles, done⟩ := (accepts _).mpr digits
    rw [accented] at done
    cases done
  have small : ∀ value ∈ ([0, 15] : List UInt8), value < 16 := by simp
  refine ⟨typed, (read _ _ typed).2.1, notDigits, ?_, ?_⟩
  · obtain ⟨before, c, -, -, -, -, error, is_error, stray, message⟩ := refused _ notDigits
    rw [accented] at is_error
    cases is_error
    rw [Nibble.Stray.mk.injEq] at stray
    exact ⟨_, accented, rfl, by rw [message, ← stray.1, ← stray.2]⟩
  · obtain ⟨digits, nibbles, again, readBack, data_eq⟩ := shown [0, 15] true small
    have same : (digits, true) = ("0f", true) := again.symm.trans line
    cases same
    exact ⟨nibbles, line, readBack, data_eq⟩

end PathStore.Path
