import PathStore.Hex
import PathStore.Proofs.Packing

/-!
# The texts that spell bytes

Hexadecimal digits of either case stand for the same nibbles, so a text spells
nibbles exactly if its lower-case form is their digits.  A text spells bytes if
it does so behind any number of `0x` marks; no digit is ever taken for a part of
a mark.  Texts are read as bytes in UTF-8, but all of their characters are then
of seven bits, and a byte is a character.
-/

namespace PathStore

/-! ## Digits -/

namespace Nibble

/-- The character is a hexadecimal digit, of either case. -/
def IsDigit (c : Char) : Prop :=
  ('0' ≤ c ∧ c ≤ '9') ∨ ('a' ≤ c ∧ c ≤ 'f') ∨ ('A' ≤ c ∧ c ≤ 'F')

instance (c : Char) : Decidable (IsDigit c) :=
  inferInstanceAs (Decidable (_ ∨ _))

/-- The character is a hexadecimal digit of the lower case. -/
def IsLowerDigit (c : Char) : Prop :=
  ('0' ≤ c ∧ c ≤ '9') ∨ ('a' ≤ c ∧ c ≤ 'f')

instance (c : Char) : Decidable (IsLowerDigit c) :=
  inferInstanceAs (Decidable (_ ∨ _))

theorem digit_injective : Function.Injective digit := by
  intro first second same
  have read := congrArg ofDigit? same
  rwa [ofDigit?_digit, ofDigit?_digit, Option.some.injEq] at read

theorem isLowerDigit_digit (n : Nibble) : IsLowerDigit n.digit := by
  revert n
  decide

theorem toLower_digit (n : Nibble) : n.digit.toLower = n.digit := by
  revert n
  decide

theorem map_toLower_digit (nibbles : List Nibble) :
    (nibbles.map digit).map Char.toLower = nibbles.map digit := by
  simp [toLower_digit]

theorem toNat_digit_lt (n : Nibble) : n.digit.toNat < 128 := by
  revert n
  decide

theorem digit_ne (n : Nibble) : n.digit ≠ 'T' ∧ n.digit ≠ 'x' ∧ n.digit ≠ ' ' := by
  revert n
  decide

/-- Characters of more than seven bits have no case. -/
theorem toLower_eq_self {c : Char} (beyond : 128 ≤ c.toNat) : c.toLower = c := by
  have above : ¬ c.val ≤ 'Z'.val := by
    rw [UInt32.le_iff_toNat_le, Char.toNat_val]
    have : 'Z'.val.toNat = 90 := rfl
    omega
  exact dif_neg fun upper => above upper.2

/-- What is so for each character of seven bits. -/
theorem of_ascii {P : Char → Prop} (checked : ∀ code < 128, P (Char.ofNat code)) {c : Char}
    (ascii : c.toNat < 128) : P c := by
  have holds := checked c.toNat ascii
  rwa [Char.ofNat_toNat] at holds

/-- A character stands for the nibble whose digit it is, in either case. -/
theorem ofDigit?_eq_some_iff {c : Char} {n : Nibble} :
    ofDigit? c = some n ↔ c.toLower = n.digit := by
  by_cases ascii : c.toNat < 128
  · revert n
    revert ascii
    apply of_ascii
    decide
  · have stray : ofDigit? c = none := by
      simp only [ofDigit?]
      split_ifs <;> first | omega | rfl
    have other : c.toLower ≠ n.digit := by
      intro same
      have small := toNat_digit_lt n
      rw [← same, toLower_eq_self (by omega)] at small
      exact ascii small
    simp [stray, other]

theorem isDigit_iff_isSome {c : Char} : IsDigit c ↔ (ofDigit? c).isSome := by
  have between (low high : Char) :
      low ≤ c ∧ c ≤ high ↔ low.toNat ≤ c.toNat ∧ c.toNat ≤ high.toNat := Iff.rfl
  simp only [IsDigit, between, ofDigit?, Char.reduceToNat]
  split_ifs <;> simp <;> omega

/-- The digits are the characters whose lower-case form is that of a nibble. -/
theorem isDigit_iff {c : Char} : IsDigit c ↔ ∃ n : Nibble, c.toLower = n.digit := by
  simp only [isDigit_iff_isSome, Option.isSome_iff_exists, ofDigit?_eq_some_iff]

/-- A text is digits exactly if its lower-case form is that of nibbles. -/
theorem forall_isDigit_iff {text : List Char} :
    (∀ c ∈ text, IsDigit c) ↔
      ∃ nibbles : List Nibble, text.map Char.toLower = nibbles.map digit := by
  induction text with
  | nil => simp
  | cons c rest ih =>
      rw [List.forall_mem_cons, ih, isDigit_iff]
      constructor
      · rintro ⟨⟨n, first⟩, nibbles, others⟩
        exact ⟨n :: nibbles, by simp [first, others]⟩
      · rintro ⟨nibbles, spelled⟩
        cases nibbles with
        | nil => cases spelled
        | cons n nibbles =>
            rw [List.map_cons, List.map_cons, List.cons.injEq] at spelled
            exact ⟨⟨n, spelled.1⟩, nibbles, spelled.2⟩

/-- Digits are read exactly as the nibbles whose digits they are, in either
case. -/
theorem readDigits_eq_ok_iff {position : Nat} {text : List Char} {nibbles : List Nibble} :
    readDigits position text = .ok nibbles ↔ text.map Char.toLower = nibbles.map digit := by
  induction text generalizing position nibbles with
  | nil => cases nibbles <;> simp [readDigits]
  | cons c rest ih =>
      rw [readDigits]
      constructor
      · intro done
        split at done
        · cases done
        · rename_i n spelled
          obtain ⟨tail, inner, rfl⟩ := map_eq_ok_iff.mp done
          rw [List.map_cons, List.map_cons, ofDigit?_eq_some_iff.mp spelled, ih.mp inner]
      · intro spelled
        cases nibbles with
        | nil => cases spelled
        | cons n tail =>
            rw [List.map_cons, List.map_cons, List.cons.injEq] at spelled
            rw [ofDigit?_eq_some_iff.mpr spelled.1, ih.mpr spelled.2]
            rfl

end Nibble

/-! ## Texts of seven bits -/

namespace Text

/-- The character with the number of a byte. -/
def byteChar (b : UInt8) : Char := Char.ofNat b.toNat

theorem toNat_byteChar (b : UInt8) : (byteChar b).toNat = b.toNat := by
  have valid : b.toNat.isValidChar := .inl (Nat.lt_trans b.toNat_lt (by decide))
  rw [byteChar, Char.ofNat, dif_pos valid]
  rfl

theorem map_byteChar_utf8EncodeChar {c : Char} (ascii : c.toNat < 128) :
    (String.utf8EncodeChar c).map byteChar = [c] := by
  have small : c.toNat ≤ 127 := by omega
  have same : c.toNat % 256 = c.toNat := by omega
  rw [String.utf8EncodeChar, Char.toNat_val, if_pos small]
  simp [byteChar, same]

/-- A longer form begins with a byte beyond seven bits. -/
theorem exists_mem_utf8EncodeChar {c : Char} (beyond : 128 ≤ c.toNat) :
    ∃ b ∈ String.utf8EncodeChar c, 128 ≤ b.toNat := by
  have large : ¬ c.toNat ≤ 127 := by omega
  rw [String.utf8EncodeChar, Char.toNat_val, if_neg large]
  split_ifs
  all_goals
    refine ⟨_, List.mem_cons_self, ?_⟩
    rw [UInt8.toNat_ofNat']
    omega

theorem map_byteChar_utf8 {text : List Char} (ascii : ∀ c ∈ text, c.toNat < 128) :
    (utf8 text).map byteChar = text := by
  induction text with
  | nil => rfl
  | cons c rest ih =>
      rw [List.forall_mem_cons] at ascii
      rw [utf8, List.flatMap_cons, List.map_append, map_byteChar_utf8EncodeChar ascii.1]
      exact congrArg (c :: ·) (ih ascii.2)

theorem ascii_of_utf8 {text : List Char} (ascii : ∀ b ∈ utf8 text, b.toNat < 128) :
    ∀ c ∈ text, c.toNat < 128 := by
  intro c member
  by_contra beyond
  obtain ⟨b, isByte, high⟩ := exists_mem_utf8EncodeChar (Nat.le_of_not_lt beyond)
  have := ascii b (List.mem_flatMap.mpr ⟨c, member, isByte⟩)
  omega

end Text

/-! ## Bytes behind marks -/

namespace Hex

theorem ascii_of_map_toLower {text : List Char} {nibbles : List Nibble}
    (spelled : text.map Char.toLower = nibbles.map Nibble.digit) :
    ∀ c ∈ text, c.toNat < 128 := by
  intro c member
  by_contra beyond
  obtain ⟨n, _, same⟩ := List.mem_map.mp (spelled ▸ List.mem_map_of_mem member)
  rw [Nibble.toLower_eq_self (by omega)] at same
  exact beyond (same ▸ Nibble.toNat_digit_lt n)

/-- Read as bytes, a text is digits exactly if it is so read as characters. -/
theorem readDigits_utf8_eq_ok_iff {text : List Char} {nibbles : List Nibble} :
    Nibble.readDigits 0 ((Text.utf8 text).map Text.byteChar) = .ok nibbles ↔
      text.map Char.toLower = nibbles.map Nibble.digit := by
  rw [Nibble.readDigits_eq_ok_iff]
  constructor
  · intro spelled
    have ascii : ∀ c ∈ text, c.toNat < 128 := by
      apply Text.ascii_of_utf8
      intro b member
      rw [← Text.toNat_byteChar]
      exact ascii_of_map_toLower spelled _ (List.mem_map_of_mem member)
    rwa [Text.map_byteChar_utf8 ascii] at spelled
  · intro spelled
    rwa [Text.map_byteChar_utf8 (ascii_of_map_toLower spelled)]

theorem length_utf8 {text : List Char} (ascii : ∀ c ∈ text, c.toNat < 128) :
    (Text.utf8 text).length = text.length := by
  rw [← List.length_map Text.byteChar, Text.map_byteChar_utf8 ascii]

/-- Unmarked text spells the bytes whose digits it is, in either case. -/
theorem decodeBytes_utf8_eq_ok_iff {text : List Char} {bytes : Bytes} :
    decodeBytes (Text.utf8 text) = .ok bytes ↔ text.map Char.toLower = digits bytes := by
  constructor
  · intro done
    rw [decodeBytes] at done
    split at done
    · cases done
    · rename_i notOdd
      split at done
      · cases done
      · rename_i nibbles spelled
        cases done
        have spelled := readDigits_utf8_eq_ok_iff.mp spelled
        have same_length := congrArg List.length spelled
        rw [List.length_map, List.length_map] at same_length
        rw [length_utf8 (ascii_of_map_toLower spelled), same_length] at notOdd
        rw [digits, Nibble.expand_pair (Nat.mod_two_ne_one.mp notOdd), spelled]
  · intro spelled
    have even : ¬ (Text.utf8 text).length % 2 = 1 := by
      rw [length_utf8 (ascii_of_map_toLower spelled), ← List.length_map Char.toLower, spelled,
        digits, List.length_map, Path.even_length_expand]
      decide
    have read : Nibble.readDigits 0 ((Text.utf8 text).map fun b => Char.ofNat b.toNat) = _ :=
      readDigits_utf8_eq_ok_iff.mpr spelled
    rw [decodeBytes, if_neg even, read]
    exact congrArg Except.ok (Nibble.pair_expand bytes)

/-- A text behind a number of `0x` marks. -/
def marked : Nat → List Char → List Char
  | 0, text => text
  | marks + 1, text => '0' :: 'x' :: marked marks text

/-- The marks are all that is taken off a text. -/
theorem exists_eq_marked (text : List Char) : ∃ marks, text = marked marks (unmarked text) := by
  fun_induction unmarked text with
  | case1 rest ih =>
      obtain ⟨marks, split⟩ := ih
      exact ⟨marks + 1, congrArg ('0' :: 'x' :: ·) split⟩
  | case2 text _ => exact ⟨0, rfl⟩

/-- Digits are never taken for a mark. -/
theorem unmarked_marked {spelling : List Char} {nibbles : List Nibble}
    (spelled : spelling.map Char.toLower = nibbles.map Nibble.digit) (marks : Nat) :
    unmarked (marked marks spelling) = spelling := by
  induction marks with
  | zero =>
      rw [marked, unmarked]
      rintro rest rfl
      have isMark : 'x' ∈ '0' :: 'x' :: rest := List.mem_cons_of_mem _ List.mem_cons_self
      obtain ⟨n, _, same⟩ := List.mem_map.mp (spelled ▸ List.mem_map_of_mem isMark)
      exact (Nibble.digit_ne n).2.1 same
  | succ marks ih => exact ih

/-- The texts that spell bytes are their digits, in either case, behind any
number of marks. -/
theorem decode_eq_ok_iff {text : String} {bytes : Bytes} :
    decode text = .ok bytes ↔
      ∃ marks spelling, text.toList = marked marks spelling ∧
        spelling.map Char.toLower = digits bytes := by
  rw [decode, decodeBytes_utf8_eq_ok_iff]
  constructor
  · intro spelled
    obtain ⟨marks, split⟩ := exists_eq_marked text.toList
    exact ⟨marks, _, split, spelled⟩
  · rintro ⟨marks, spelling, split, spelled⟩
    rwa [split, unmarked_marked spelled]

end Hex

end PathStore
