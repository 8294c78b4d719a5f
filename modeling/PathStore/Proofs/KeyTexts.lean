import PathStore.Proofs.GrammarReading
import PathStore.Proofs.TokenTexts
import PathStore.Proofs.WholeTexts

/-!
# Keys are read from lists of bytes

A key is read from a list of integers below 256 that are written with digits alone,
and from no other text: what is read was scanned from such a list, and such a list is
read whatever blanks stand in it.  The written form of a key is one of them, because
the digits of a number have no zero in front and give the number back.
-/

namespace PathStore

open Json

namespace Json

/-! ## Bytes -/

namespace Numeral

open Decimal (isDigit valueFrom wordLimit)

/-- Behind a sign there is no natural number, not even zero, which is a real then. -/
theorem shape?_ne_natural_of_negative {whole fraction : List Char}
    {exponent : Option (Bool × List Char)} {value : Nat} :
    shape? ⟨true, whole, fraction, exponent⟩ ≠ some (.integer value) := by
  intro isNatural
  simp only [shape?, if_true] at isNatural
  split_ifs at isNatural with isInteger
  · have same : -(valueFrom 0 whole : Int) = value := by simpa using isNatural
    omega
  · simp at isNatural

/-- A number stands for a natural one if it is written with digits alone, and the
digits fit into a word. -/
theorem shape?_eq_natural_iff {numeral : Numeral} {value : Nat} :
    numeral.shape? = some (.integer value) ↔
      ∃ whole, numeral = ⟨false, whole, [], none⟩ ∧ valueFrom 0 whole = value ∧
        value < wordLimit := by
  constructor
  · intro isNatural
    obtain ⟨negative, whole, fraction, exponent⟩ := numeral
    cases negative with
    | true => exact absurd isNatural shape?_ne_natural_of_negative
    | false =>
        simp only [shape?, List.isEmpty_iff, Option.isNone_iff_eq_none, Bool.false_eq_true,
          if_false] at isNatural
        split_ifs at isNatural with isInteger
        · obtain ⟨rfl, rfl, fits⟩ := isInteger
          have same : (valueFrom 0 whole : Int) = value := by simpa using isNatural
          rw [Int.ofNat_inj] at same
          exact ⟨whole, rfl, same, same ▸ fits⟩
        · simp at isNatural
  · rintro ⟨whole, rfl, rfl, fits⟩
    simp [shape?, fits]

/-- The value of digits, the highest first. -/
theorem valueFrom_zero (digits : List Char) :
    valueFrom 0 digits = Nat.ofDigitChars 10 digits 0 := by
  rw [Nat.ofDigitChars_eq_foldl]
  rfl

/-- A number without sign, fraction and exponent is written as its digits. -/
theorem written_natural_iff {digits whole : List Char} :
    Written digits ⟨false, whole, [], none⟩ ↔ Whole whole ∧ digits = whole := by
  constructor
  · intro written
    obtain @⟨_, _, point, _, power, _, isWhole, isFraction, isExponent⟩ := written
    cases isExponent
    cases isFraction with
    | absent => exact ⟨isWhole, by simp⟩
    | present isDigits => exact absurd rfl isDigits.1
  · rintro ⟨isWhole, rfl⟩
    exact .of_whole isWhole

theorem Whole.isDigit {whole : List Char} (isWhole : Whole whole) :
    ∀ c ∈ whole, Decimal.isDigit c = true := by
  obtain rfl | ⟨isDigits, -⟩ := isWhole
  · simp [Decimal.isDigit]
  · exact isDigits.2

theorem isDigit_of_mem_toDigits {number : Nat} {c : Char} (isMember : c ∈ Nat.toDigits 10 number) :
    isDigit c = true := by
  have digit : c.isDigit = true := Nat.isDigit_of_mem_toDigits (by decide) (by decide) isMember
  simpa [Char.isDigit, isDigit, UInt32.le_iff_toNat_le] using digit

/-- The digits of a number have no zero in front, unless it is zero itself. -/
theorem head?_toDigits {number : Nat} (positive : 0 < number) :
    (Nat.toDigits 10 number).head? ≠ some '0' := by
  induction number using Nat.strongRecOn with
  | ind number ih =>
      rw [Nat.toDigits_eq_if (by decide)]
      split_ifs with small
      · rw [List.head?_cons, ne_eq, Option.some.injEq]
        intro zero
        have code := Nat.toNat_digitChar_of_lt_ten small
        rw [zero] at code
        have : '0'.toNat = 48 := rfl
        omega
      · rw [List.head?_append_of_ne_nil _ Nat.toDigits_ne_nil]
        exact ih (number / 10) (by omega) (by omega)

theorem whole_toDigits (number : Nat) : Whole (Nat.toDigits 10 number) := by
  obtain rfl | positive := Nat.eq_zero_or_pos number
  · exact .inl (Nat.toDigits_zero 10)
  · exact .inr ⟨⟨Nat.toDigits_ne_nil, fun _ => isDigit_of_mem_toDigits⟩, head?_toDigits positive⟩

end Numeral

/-- Only a number stands for a natural one. -/
theorem Token.shape_eq_natural_iff {token : Token} {value : Nat} :
    token.shape = .ok (.integer value) ↔
      ∃ whole, token = .number ⟨false, whole, [], none⟩ ∧ Decimal.valueFrom 0 whole = value ∧
        value < Decimal.wordLimit := by
  cases token with
  | number numeral =>
      have same : (Token.number numeral).shape = .ok (.integer value) ↔
          numeral.shape? = some (.integer value) := by
        rw [shape]
        cases numeral.shape? <;> simp
      simp [same, Numeral.shape?_eq_natural_iff]
  | text pieces =>
      rw [shape]
      cases Text.string? pieces <;> simp
  | _ => simp [shape]

/-- A byte is read from one token, a number below 256 that is written with digits
alone. -/
theorem readByte_eq_ok_iff {tokens rest : List Token} {byte : UInt8} :
    readByte.run tokens = .ok (byte, rest) ↔
      ∃ whole, tokens = .number ⟨false, whole, [], none⟩ :: rest ∧
        Decimal.valueFrom 0 whole = byte.toNat := by
  constructor
  · intro done
    cases tokens with
    | nil => cases done
    | cons token tokens =>
        simp only [readByte, readToken, StateT.run] at done
        split at done
        · rename_i isByte
          cases done
          split at isByte
          · rename_i shaped
            split_ifs at isByte with inRange
            cases isByte
            obtain ⟨value, rfl⟩ := Int.eq_ofNat_of_zero_le inRange.1
            obtain ⟨whole, rfl, same, -⟩ := Token.shape_eq_natural_iff.mp shaped
            have small : value < 256 := by omega
            exact ⟨whole, rfl, same.trans (UInt8.toNat_ofNat_of_lt' small).symm⟩
          · cases isByte
        · cases done
  · rintro ⟨whole, rfl, value⟩
    have small : byte.toNat < 256 := byte.toNat_lt
    have fits : byte.toNat < Decimal.wordLimit := Nat.lt_trans small (by decide)
    have shaped := Token.shape_eq_natural_iff.mpr ⟨whole, rfl, value, fits⟩
    refine readToken_of_ok ?_ rest
    simp only [shaped]
    rw [if_pos ⟨Int.natCast_nonneg _, by omega⟩, Int.toNat_natCast, UInt8.ofNat_toNat]

end Json

namespace Key

/-- The text is a number of the value of the byte, with blanks around it and without a
sign, a fraction or an exponent. -/
def SpelledByte (byte : UInt8) (text : List Char) : Prop :=
  ∃ digits, Numeral.Written digits ⟨false, digits, [], none⟩ ∧
    Nat.ofDigitChars 10 digits 0 = byte.toNat ∧ Spaced digits text

/-- The text is a string, or a number with a sign, a fraction or an exponent. -/
inductive NoByte : List Char → Prop
  | string {text : List Char} {pieces : List Piece} : Literal text pieces → NoByte text
  | number {digits text : List Char} {numeral : Numeral} :
      numeral.negative = true ∨ numeral.fraction ≠ [] ∨ numeral.exponent ≠ none →
        Numeral.Written digits numeral → Spaced digits text → NoByte text

/-! ## Reading -/

theorem SpelledByte.reads {byte : UInt8} {text : List Char} (spelled : SpelledByte byte text) :
    readByte.Reads text byte := by
  obtain ⟨digits, written, value, spaced⟩ := spelled
  intro rest ends
  obtain ⟨behind, endsBehind, scanned, same⟩ := spaced.exists_scan ends
  rw [scanned, written.scan_token endsBehind, same, readByte_eq_ok_iff]
  exact ⟨digits, rfl, (Numeral.valueFrom_zero digits).trans value⟩

/-- What is read as a byte was written as one. -/
theorem readByte_takesOnly : readByte.TakesOnly SpelledByte := by
  intro text byte tokens done
  obtain ⟨whole, scanned, value⟩ := readByte_eq_ok_iff.mp done
  obtain ⟨before, digits, rest, areBlank, written, rfl, further⟩ :=
    Token.exists_of_scan_number scanned
  obtain ⟨-, rfl⟩ := Numeral.written_natural_iff.mp written
  refine ⟨before ++ digits, rest, (List.append_assoc _ _ _).symm, further, fun behind blank => ?_⟩
  exact ⟨digits, written, (Numeral.valueFrom_zero digits).symm.trans value, before, behind,
    areBlank, blank, List.append_assoc _ _ _⟩

theorem read_reads {key : Key} {text : List Char} (list : ListOf SpelledByte key.bytes text) :
    read.Reads text key := by
  obtain ⟨items, spelled, enclosed⟩ := list
  intro rest ends
  have each : ListOf (fun byte text => readByte.Reads text byte) key.bytes text :=
    ⟨items, spelled.imp fun _ _ isSpelled => isSpelled.reads, enclosed⟩
  obtain ⟨inside, scanned, done⟩ := each.reads nofun ends
  rw [scanned]
  exact Reader.run_map_of_ok done mk

theorem listOf_of_read {key : Key} {text : List Char}
    (done : read.run (Token.scan text) = .ok (key, [])) : ListOf SpelledByte key.bytes text := by
  simp only [StateT.run] at done
  unfold read at done
  split at done
  · cases done
  · rename_i tokens scanned
    obtain ⟨before, opened, blankBefore, rfl, same⟩ := Token.exists_of_scan_mark rfl scanned
    rw [← same, map_eq_pure_bind] at done
    obtain ⟨bytes, middle, taken, finished⟩ := Reader.run_bind_eq_ok done
    cases finished
    obtain ⟨items, inside, behind, spelled, separated, rfl, left⟩ :=
      exists_of_readList readByte_takesOnly taken
    have blankBehind : Blank behind := by
      rw [Token.scan_eq_nil_iff] at left
      exact fun c isMember => Token.isBlank_iff.mp (left c isMember)
    exact ⟨items, spelled, inside, separated, before, behind, blankBefore, blankBehind, by simp⟩
  · cases done

/-- A key is read from the lists of its bytes and from nothing else. -/
theorem ofJson_eq_ok_iff {key : Key} {text : String} :
    ofJson text = .ok key ↔ ListOf SpelledByte key.bytes text.toList :=
  ⟨fun accepted => listOf_of_read (document_eq_ok_iff.mp accepted),
    fun list => (read_reads list).document⟩

/-! ## Writing -/

theorem spelledByte_toDigits (byte : UInt8) : SpelledByte byte (Nat.toDigits 10 byte.toNat) :=
  ⟨_, .of_whole (Numeral.whole_toDigits _), Nat.ofDigitChars_ten_toDigits, .refl _⟩

/-- A key is written as the list of its bytes. -/
theorem listOf_toJson (key : Key) : ListOf SpelledByte key.bytes key.toJson.toList := by
  obtain ⟨bytes⟩ := key
  have spelled : List.Forall₂ SpelledByte bytes (bytes.map fun b => Nat.toDigits 10 b.toNat) :=
    List.forall₂_map_right_iff.mpr (List.forall₂_same.mpr fun b _ => spelledByte_toDigits b)
  refine ⟨_, spelled, List.intercalate [','] (bytes.map fun b => Nat.toDigits 10 b.toNat), ?_, ?_⟩
  · cases bytes with
    | nil => simp [Separated, Blank]
    | cons first more => rfl
  · rw [toJson, String.toList_ofList]
    exact .refl _

/-! ## What is no byte -/

/-- The character may stand in a list of bytes. -/
def Admits (c : Char) : Prop :=
  Decimal.isDigit c = true ∨ c ∈ [' ', '\t', '\n', '\r', '[', ',', ']']

instance : DecidablePred Admits :=
  fun _ => inferInstanceAs (Decidable (_ ∨ _))

theorem admits_of_blank {blanks : List Char} (blank : Blank blanks) :
    ∀ c ∈ blanks, Admits c := by
  intro c isMember
  obtain rfl | rfl | rfl | rfl := blank c isMember <;> exact .inr (by decide)

theorem admits_of_spaced {core text : List Char} (spaced : Spaced core text)
    (admitted : ∀ c ∈ core, Admits c) : ∀ c ∈ text, Admits c := by
  obtain ⟨before, behind, blankBefore, blankBehind, rfl⟩ := spaced
  exact List.forall_mem_append.mpr ⟨admits_of_blank blankBefore,
    List.forall_mem_append.mpr ⟨admitted, admits_of_blank blankBehind⟩⟩

theorem SpelledByte.admits {byte : UInt8} {text : List Char} (spelled : SpelledByte byte text) :
    ∀ c ∈ text, Admits c := by
  obtain ⟨digits, written, -, spaced⟩ := spelled
  obtain ⟨isWhole, -⟩ := Numeral.written_natural_iff.mp written
  exact admits_of_spaced spaced fun c isMember => .inl (isWhole.isDigit c isMember)

/-- An accepted text has no other characters than those of numbers, and punctuation. -/
theorem admits_of_listOf {bytes : List UInt8} {text : List Char}
    (list : ListOf SpelledByte bytes text) : ∀ c ∈ text, Admits c := by
  obtain ⟨items, spelled, inside, separated, spaced⟩ := list
  have each : ∀ item ∈ items, ∀ c ∈ item, Admits c := by
    clear separated
    induction spelled with
    | nil => simp
    | cons isSpelled _ ih => exact List.forall_mem_cons.mpr ⟨isSpelled.admits, ih⟩
  have insideAdmitted : ∀ c ∈ inside, Admits c := by
    cases items with
    | nil => exact admits_of_blank separated
    | cons first more =>
        obtain ⟨firstAdmitted, each⟩ := List.forall_mem_cons.mp each
        rw [separated.eq_intercalate, intercalate_comma]
        refine List.forall_mem_append.mpr ⟨firstAdmitted, fun c isMember => ?_⟩
        obtain ⟨item, isItem, isMember⟩ := List.mem_flatMap.mp isMember
        obtain rfl | isMember := List.mem_cons.mp isMember
        · exact .inr (by decide)
        · exact each item isItem c isMember
  refine admits_of_spaced spaced (List.forall_mem_cons.mpr ⟨.inr (by decide), ?_⟩)
  exact List.forall_mem_append.mpr
    ⟨insideAdmitted, List.forall_mem_singleton.mpr (.inr (by decide))⟩

theorem NoByte.exists_not_admits {text : List Char} (noByte : NoByte text) :
    ∃ c ∈ text, ¬ Admits c := by
  cases noByte with
  | string literal =>
      obtain ⟨inside, -, before, behind, -, -, rfl⟩ := literal
      exact ⟨'"', by simp, by decide⟩
  | number further written spaced =>
      obtain ⟨before, behind, -, -, rfl⟩ := spaced
      obtain @⟨negative, whole, point, fraction, power, exponent, -, isFraction, isExponent⟩ :=
        written
      obtain isNegative | hasFraction | hasExponent := further
      · exact ⟨'-', by simp_all, by decide⟩
      · cases isFraction with
        | absent => exact absurd rfl hasFraction
        | present isDigits => exact ⟨'.', by simp, by decide⟩
      · cases isExponent with
        | absent => exact absurd rfl hasExponent
        | @present mark _ _ _ isMark =>
            refine ⟨mark, by simp, ?_⟩
            obtain rfl | rfl := isMark <;> decide

theorem mem_of_enclosed {opening closing c : Char} {items : List (List Char)}
    {item text : List Char} (enclosed : Enclosed opening closing items text)
    (isItem : item ∈ items) (isMember : c ∈ item) : c ∈ text := by
  obtain ⟨inside, separated, before, behind, -, -, rfl⟩ := enclosed
  have isInside : c ∈ inside := by
    cases items with
    | nil => cases isItem
    | cons first more =>
        rw [separated.eq_intercalate, intercalate_comma, List.mem_append, List.mem_flatMap]
        obtain rfl | isMore := List.mem_cons.mp isItem
        · exact .inl isMember
        · exact .inr ⟨item, isMore, List.mem_cons_of_mem _ isMember⟩
  simp [isInside]

/-! ## Both ways -/

/-- A key is read back from the text that it is written as, and it is read from the
lists of its bytes, with any blanks, and from nothing else.  So no text is accepted in
which a string stands for a byte, or a number with a sign, a fraction or an exponent. -/
theorem ofJson_reads_exactly_lists_of_bytes (key : Key) :
    ofJson key.toJson = .ok key ∧
      (∀ text : String, ofJson text = .ok key ↔ ListOf SpelledByte key.bytes text.toList) ∧
      ∀ (text : String) (items : List (List Char)), Enclosed '[' ']' items text.toList →
        (∃ item ∈ items, NoByte item) → ofJson text ≠ .ok key := by
  refine ⟨ofJson_eq_ok_iff.mpr (listOf_toJson key), fun text => ofJson_eq_ok_iff, ?_⟩
  rintro text items enclosed ⟨item, isItem, noByte⟩ accepted
  -- The items need not be those that were read, since a comma may stand within quotes;
  -- but whatever was read has the characters of all of them.
  obtain ⟨c, isMember, notAdmitted⟩ := noByte.exists_not_admits
  have admitted := admits_of_listOf (ofJson_eq_ok_iff.mp accepted)
  exact notAdmitted (admitted c (mem_of_enclosed enclosed isItem isMember))

/-- A list with blanks is read, and one with a negative zero in place of the zero is
not. -/
theorem ofJson_reads_exactly_lists_of_bytes_negativeZero :
    ofJson (toJson ⟨[7, 0]⟩) = .ok ⟨[7, 0]⟩ ∧
      (ListOf SpelledByte [7, 0] " [7\t,\n0]".toList ∧ ofJson " [7\t,\n0]" = .ok ⟨[7, 0]⟩) ∧
      Enclosed '[' ']' [['7'], ['-', '0']] "[7,-0]".toList ∧ NoByte ['-', '0'] ∧
      ofJson "[7,-0]" ≠ .ok ⟨[7, 0]⟩ := by
  obtain ⟨readsBack, readsLists, refuses⟩ := ofJson_reads_exactly_lists_of_bytes ⟨[7, 0]⟩
  have seven : SpelledByte 7 ['7', '\t'] :=
    ⟨['7'], .of_whole (.of_digit rfl), rfl, [], ['\t'], by simp [Blank], by simp [Blank], rfl⟩
  have zero : SpelledByte 0 ['\n', '0'] :=
    ⟨['0'], .of_whole (.of_digit rfl), rfl, ['\n'], [], by simp [Blank], by simp [Blank], rfl⟩
  have list : ListOf SpelledByte [7, 0] " [7\t,\n0]".toList :=
    ⟨_, .cons seven (.cons zero .nil), _, rfl, [' '], [], by simp [Blank], by simp [Blank], rfl⟩
  have enclosed : Enclosed '[' ']' [['7'], ['-', '0']] "[7,-0]".toList := ⟨_, rfl, .refl _⟩
  have noByte : NoByte ['-', '0'] :=
    .number (.inl rfl) (.intro true (.inl rfl) .absent .absent) (.refl _)
  exact ⟨readsBack, ⟨list, (readsLists _).mpr list⟩, enclosed, noByte,
    refuses _ _ enclosed ⟨_, by simp, noByte⟩⟩

end Key

end PathStore
