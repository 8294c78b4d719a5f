import PathStore.Proofs.HexText
import PathStore.Proofs.RefusedOperands

/-!
# What an operand is refused for

Behind its marks an operand is an even number of digits, or it is refused.  An odd
number of bytes is noticed first, whatever they are.  Otherwise the first byte that
is no digit is named, with the number of bytes in front of it.  The marks count for
neither, and a text beyond seven bits counts by its bytes in UTF-8.
-/

namespace PathStore

namespace Nibble

/-- Digits are read up to the first character that is none. -/
theorem readDigits_eq_error_iff {position : Nat} {text : List Char} {stray : Stray} :
    readDigits position text = .error stray ↔
      ∃ before after, text = before ++ stray.char :: after ∧ (∀ c ∈ before, IsDigit c) ∧
        ¬ IsDigit stray.char ∧ stray.position = position + before.length := by
  induction text generalizing position with
  | nil => simp [readDigits]
  | cons c rest ih =>
      rw [readDigits]
      cases spelled : ofDigit? c with
      | none =>
          have notDigit : ¬ IsDigit c := by simp [isDigit_iff_isSome, spelled]
          constructor
          · rintro ⟨⟩
            exact ⟨[], rest, rfl, by simp, notDigit, rfl⟩
          · rintro ⟨before, after, split, digits, -, place⟩
            cases before with
            | nil =>
                cases split
                cases stray
                cases place
                rfl
            | cons other before =>
                cases split
                exact absurd (digits c List.mem_cons_self) notDigit
      | some n =>
          have isDigit : IsDigit c := by simp [isDigit_iff_isSome, spelled]
          simp only [map_eq_error_iff, ih]
          constructor
          · rintro ⟨before, after, rfl, digits, notDigit, place⟩
            refine ⟨c :: before, after, rfl, List.forall_mem_cons.mpr ⟨isDigit, digits⟩,
              notDigit, ?_⟩
            rw [place, List.length_cons]
            omega
          · rintro ⟨before, after, split, digits, notDigit, place⟩
            cases before with
            | nil =>
                cases split
                exact absurd isDigit notDigit
            | cons other before =>
                cases split
                refine ⟨before, after, rfl, (List.forall_mem_cons.mp digits).2, notDigit, ?_⟩
                rw [place, List.length_cons]
                omega

end Nibble

namespace Hex

/-! ## Digits behind marks -/

/-- The text is an even number of digits, in either case and behind any number of
marks, and they are the digits of the bytes. -/
def Spells (text : String) (bytes : Bytes) : Prop :=
  ∃ marks spelling, text.toList = marked marks spelling ∧
    (∀ c ∈ spelling, Nibble.IsDigit c) ∧ spelling.length % 2 = 0 ∧
    spelling.map Char.toLower = digits bytes

theorem even_length_digits (bytes : Bytes) : (digits bytes).length % 2 = 0 := by
  rw [digits, List.length_map, Path.even_length_expand]

/-- An even number of digits spells bytes. -/
theorem exists_digits_eq {spelling : List Char} (areDigits : ∀ c ∈ spelling, Nibble.IsDigit c)
    (even : spelling.length % 2 = 0) : ∃ bytes, spelling.map Char.toLower = digits bytes := by
  obtain ⟨nibbles, spelled⟩ := Nibble.forall_isDigit_iff.mp areDigits
  have length_eq := congrArg List.length spelled
  rw [List.length_map, List.length_map] at length_eq
  refine ⟨Nibble.pair nibbles, ?_⟩
  rw [digits, Nibble.expand_pair (length_eq ▸ even), spelled]

theorem decode_eq_ok_iff_spells {text : String} {bytes : Bytes} :
    decode text = .ok bytes ↔ Spells text bytes := by
  rw [decode_eq_ok_iff]
  constructor
  · rintro ⟨marks, spelling, split, spelled⟩
    have length_eq := congrArg List.length spelled
    rw [List.length_map] at length_eq
    exact ⟨marks, spelling, split, Nibble.forall_isDigit_iff.mpr ⟨_, spelled⟩,
      length_eq ▸ even_length_digits bytes, spelled⟩
  · rintro ⟨marks, spelling, split, -, -, spelled⟩
    exact ⟨marks, spelling, split, spelled⟩

/-! ## Refusals -/

/-- No mark is left in front of a text that all marks have been taken off. -/
theorem not_mark_isPrefix_unmarked (text : List Char) : ¬ ['0', 'x'] <+: unmarked text := by
  fun_induction unmarked text with
  | case1 rest ih => exact ih
  | case2 text notMarked =>
      rintro ⟨rest, rfl⟩
      exact notMarked rest rfl

/-- The byte is the first of the text that is no digit, named as a character, and the
position is the number of bytes in front of it. -/
def FirstStray (text : Bytes) (stray : Nibble.Stray) : Prop :=
  ∃ before byte after, text = before ++ byte :: after ∧
    (∀ b ∈ before, Nibble.IsDigit (Text.byteChar b)) ∧ ¬ Nibble.IsDigit (Text.byteChar byte) ∧
    stray = ⟨Text.byteChar byte, before.length⟩

theorem readDigits_byteChar_eq_error_iff {text : Bytes} {stray : Nibble.Stray} :
    Nibble.readDigits 0 (text.map Text.byteChar) = .error stray ↔ FirstStray text stray := by
  rw [Nibble.readDigits_eq_error_iff]
  constructor
  · rintro ⟨digits, others, split, areDigits, notDigit, place⟩
    obtain ⟨before, behind, rfl, rfl, left⟩ := List.map_eq_append_iff.mp split
    obtain ⟨byte, after, rfl, isStray, rfl⟩ := List.map_eq_cons_iff.mp left
    refine ⟨before, byte, after, rfl, List.forall_mem_map.mp areDigits, isStray ▸ notDigit, ?_⟩
    cases stray
    simp_all
  · rintro ⟨before, byte, after, rfl, areDigits, notDigit, rfl⟩
    exact ⟨before.map Text.byteChar, after.map Text.byteChar, by simp,
      List.forall_mem_map.mpr areDigits, notDigit, by simp⟩

/-- An odd number of bytes is noticed before any byte that is no digit. -/
theorem decodeBytes_eq_error_iff {text : Bytes} {cause : HexError} :
    decodeBytes text = .error cause ↔
      (text.length % 2 = 1 ∧ cause = .oddLength) ∨
      (text.length % 2 = 0 ∧ ∃ stray, FirstStray text stray ∧ cause = .stray stray) := by
  simp only [← readDigits_byteChar_eq_error_iff]
  rcases Nat.mod_two_eq_zero_or_one text.length with even | odd
  · rw [decodeBytes, if_neg (by omega), even,
      show (text.map fun b => Char.ofNat b.toNat) = text.map Text.byteChar from rfl]
    cases Nibble.readDigits 0 (text.map Text.byteChar) <;> simp [eq_comm]
  · rw [decodeBytes, if_pos odd]
    simp [odd, eq_comm]

/-! ## The main result -/

/-- An operand is read exactly if it is an even number of digits behind any number
of `0x` marks, and gives the bytes that the digits spell, so the digits of bytes are
read as these bytes behind any number of marks and in any case.  Every other text is
refused.  With all marks taken off, the reason is an odd number of bytes if it is
odd, and otherwise the first byte that is no digit, with the number of bytes in
front of it. -/
theorem operand_reads_marked_digits (role : String) :
    (∀ text bytes, operand role text = .ok bytes ↔ Spells text bytes) ∧
    (∀ marks spelling, (∀ c ∈ spelling, Nibble.IsDigit c) → spelling.length % 2 = 0 →
      ∃ bytes, operand role (String.ofList (marked marks spelling)) = .ok bytes) ∧
    (∀ bytes marks spelling, spelling.map Char.toLower = (encode bytes).toList →
      operand role (String.ofList (marked marks spelling)) = .ok bytes) ∧
    HexError.oddLength.message = "Odd number of digits" ∧
    ∀ text, (¬ ∃ bytes, Spells text bytes) →
      ∃ marks rest cause, text.toList = marked marks rest ∧ ¬ ['0', 'x'] <+: rest ∧
        operand role text = .error ⟨role, text, cause⟩ ∧
        (cause = .oddLength ↔ (Text.utf8 rest).length % 2 = 1) ∧
        ((Text.utf8 rest).length % 2 = 0 →
          ∃ stray, FirstStray (Text.utf8 rest) stray ∧ cause = .stray stray) := by
  have reads : ∀ text bytes, operand role text = .ok bytes ↔ Spells text bytes := fun _ _ =>
    operand_eq_ok_iff.trans decode_eq_ok_iff_spells
  refine ⟨reads, ?accepted, ?printed, rfl, ?refused⟩
  case accepted =>
    intro marks spelling areDigits even
    obtain ⟨bytes, spelled⟩ := exists_digits_eq areDigits even
    exact ⟨bytes, (reads _ _).mpr
      ⟨marks, spelling, String.toList_ofList, areDigits, even, spelled⟩⟩
  case printed =>
    intro bytes marks spelling spelled
    rw [encode, String.toList_ofList] at spelled
    exact operand_eq_ok_iff.mpr
      (decode_eq_ok_iff.mpr ⟨marks, spelling, String.toList_ofList, spelled⟩)
  case refused =>
    intro text notSpelled
    obtain ⟨marks, split⟩ := exists_eq_marked text.toList
    cases done : decode text with
    | ok bytes => exact absurd ⟨bytes, decode_eq_ok_iff_spells.mp done⟩ notSpelled
    | error cause =>
        refine ⟨marks, unmarked text.toList, cause, split, not_mark_isPrefix_unmarked _,
          operand_eq_error_iff.mpr ⟨cause, done, rfl⟩, ?_⟩
        rcases decodeBytes_eq_error_iff.mp done with ⟨odd, rfl⟩ | ⟨even, stray, first, rfl⟩
        · simp [odd]
        · simp [even, first]

/-- Bytes whose digits are typed in both cases behind two marks, and a text beyond
seven bits that is refused for the first byte of its second character. -/
theorem operand_reads_marked_digits_accented :
    operand "key" "0x0x0aFf" = .ok [0x0a, 0xff] ∧
      ∃ marks rest cause, "0xaé1".toList = marked marks rest ∧ ¬ ['0', 'x'] <+: rest ∧
        operand "key" "0xaé1" = .error ⟨"key", "0xaé1", cause⟩ ∧
        cause = .stray ⟨'Ã', 1⟩ ∧
        ((Text.utf8 rest).length % 2 = 0 →
          ∃ stray, FirstStray (Text.utf8 rest) stray ∧ cause = .stray stray) := by
  obtain ⟨reads, -, printed, -, refused⟩ := operand_reads_marked_digits "key"
  have known : operand "key" "0xaé1" = .error ⟨"key", "0xaé1", .stray ⟨'Ã', 1⟩⟩ := by
    decide +kernel
  have notSpelled : ¬ ∃ bytes, Spells "0xaé1" bytes := by
    rintro ⟨bytes, spelled⟩
    have done := (reads _ _).mpr spelled
    rw [known] at done
    cases done
  obtain ⟨marks, rest, cause, split, unmarked, isCause, -, stray⟩ := refused _ notSpelled
  rw [known] at isCause
  cases isCause
  exact ⟨printed [0x0a, 0xff] 2 ['0', 'a', 'F', 'f'] (by decide), marks, rest, _, split, unmarked,
    known, rfl, stray⟩

end Hex

end PathStore
