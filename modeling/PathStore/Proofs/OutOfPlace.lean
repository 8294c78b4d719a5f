import Mathlib.Order.Bounds.Basic
import PathStore.Proofs.Packing

/-!
# The symbol that a list is refused for

Symbols are refused for the first one that is out of place, by its index in the
list as it was given.  A terminator is called by its name, and any other symbol
that is no nibble by its value.  A path may end in a terminator, and bytes may
not; an odd number of symbols for bytes is noticed before any of them is looked
at.  A packed path is refused for its first byte, whatever follows.
-/

namespace PathStore

/-! ## The first place -/

section

variable {places : Set ℕ} {index : ℕ}

theorem isLeast_iff_eq_zero (zero : 0 ∈ places) : IsLeast places index ↔ index = 0 := by
  constructor
  · intro least
    exact Nat.le_zero.mp (least.2 zero)
  · rintro rfl
    exact ⟨zero, fun other _ => Nat.zero_le other⟩

theorem isLeast_iff_exists_succ (notZero : 0 ∉ places) :
    IsLeast places index ↔ ∃ later, IsLeast {i | i + 1 ∈ places} later ∧ index = later + 1 := by
  constructor
  · rintro ⟨member, lower⟩
    cases index with
    | zero => exact absurd member notZero
    | succ later =>
        exact ⟨later, ⟨member, fun other further => Nat.le_of_succ_le_succ (lower further)⟩, rfl⟩
  · rintro ⟨later, ⟨member, lower⟩, rfl⟩
    refine ⟨member, fun other further => ?_⟩
    cases other with
    | zero => exact absurd further notZero
    | succ other => exact Nat.succ_le_succ (lower further)

end

/-- The refusal of the symbol at an index: the terminator stands where a nibble is
needed, or the symbol is beyond it. -/
def PathError.ofSymbol (index : Nat) (value : UInt8) : PathError :=
  if value = Path.terminator then .misplacedTerminator index else .invalidNibble index value

namespace Path

/-- The indices of the symbols that are no nibbles. -/
def strays (symbols : List UInt8) : Set ℕ :=
  {index | ∃ value, symbols[index]? = some value ∧ 15 < value}

/-- The indices of the symbols that a path cannot hold there: those that are no
nibbles, but for a terminator in the last position. -/
def outOfPlace (symbols : List UInt8) : Set ℕ :=
  {index | ∃ value, symbols[index]? = some value ∧ 15 < value ∧
    ¬ (value = terminator ∧ index + 1 = symbols.length)}

/-- The error names the first index of a set of places in a list, and the symbol
there. -/
def Blames (symbols : List UInt8) (places : Set ℕ) (error : PathError) : Prop :=
  ∃ index value, IsLeast places index ∧ symbols[index]? = some value ∧
    error = .ofSymbol index value

/-! ## Symbols that must all be nibbles -/

theorem not_lt_terminator_iff {value : UInt8} : ¬ value < terminator ↔ 15 < value := by
  rw [UInt8.lt_iff_toNat_lt, UInt8.lt_iff_toNat_lt]
  change ¬ value.toNat < 16 ↔ 15 < value.toNat
  omega

/-- Reading stops at a symbol that is no nibble. -/
theorem readNibbles_cons_of_stray {value : UInt8} (stray : 15 < value) (index : Nat)
    (rest : List UInt8) : readNibbles index (value :: rest) = .error (.ofSymbol index value) := by
  have large : ¬ value.toNat < 16 := by
    intro small
    exact not_lt_terminator_iff.mpr stray (UInt8.lt_iff_toNat_lt.mpr small)
  rw [readNibbles, PathError.ofSymbol, dif_neg large]
  split <;> rfl

/-- Reading goes on behind a nibble. -/
theorem readNibbles_symbol_cons (n : Nibble) (index : Nat) (rest : List UInt8) :
    readNibbles index (symbol n :: rest) = (readNibbles (index + 1) rest).map (n :: ·) := by
  have small : (symbol n).toNat < 16 := by
    rw [toNat_symbol]
    exact n.isLt
  rw [readNibbles, if_neg (symbol_ne_terminator n), dif_pos small]
  simp [toNat_symbol]

/-- Symbols that must all be nibbles are refused for the first that is none, its
index counted on from that of the first symbol. -/
theorem readNibbles_eq_error_iff {start : Nat} {symbols : List UInt8} {error : PathError} :
    readNibbles start symbols = .error error ↔
      ∃ index value, IsLeast (strays symbols) index ∧ symbols[index]? = some value ∧
        error = .ofSymbol (start + index) value := by
  -- A symbol that is no nibble has the least place of all; behind a nibble every place
  -- is one further than in the rest.
  induction symbols generalizing start with
  | nil => simp [readNibbles]
  | cons value rest ih =>
      by_cases stray : 15 < value
      · have zero : 0 ∈ strays (value :: rest) := ⟨value, rfl, stray⟩
        simp only [readNibbles_cons_of_stray stray, isLeast_iff_eq_zero zero]
        simp [eq_comm]
      · have notZero : 0 ∉ strays (value :: rest) := by
          rintro ⟨other, found, beyond⟩
          cases found
          exact stray beyond
        have further : {index | index + 1 ∈ strays (value :: rest)} = strays rest := rfl
        obtain ⟨n, rfl⟩ := exists_symbol_eq (not_not.mp (mt not_lt_terminator_iff.mp stray))
        have place (index : ℕ) : start + 1 + index = start + (index + 1) :=
          Nat.add_right_comm start 1 index
        rw [readNibbles_symbol_cons, map_eq_error_iff, ih]
        simp only [isLeast_iff_exists_succ notZero, further, place]
        constructor
        · rintro ⟨index, value, least, found, rfl⟩
          exact ⟨index + 1, value, ⟨index, least, rfl⟩, found, rfl⟩
        · rintro ⟨_, value, ⟨index, least, rfl⟩, found, rfl⟩
          exact ⟨index, value, least, found, rfl⟩

theorem readNibbles_zero_eq_error_iff {symbols : List UInt8} {error : PathError} :
    readNibbles 0 symbols = .error error ↔ Blames symbols (strays symbols) error := by
  simp only [readNibbles_eq_error_iff, Blames, Nat.zero_add]

/-! ## The symbols of a path -/

/-- A terminator in the last position is in its place, and the symbols in front of
it must be nibbles. -/
theorem outOfPlace_concat_terminator (front : List UInt8) :
    outOfPlace (front ++ [terminator]) = strays front := by
  ext index
  rcases Nat.lt_trichotomy index front.length with inside | rfl | beyond
  · simp [outOfPlace, strays, List.getElem?_append_left inside, Nat.ne_of_lt inside]
  · simp [outOfPlace, strays]
  · have outside : (front ++ [terminator]).length ≤ index := by
      rw [List.length_append, List.length_singleton]
      omega
    simp [outOfPlace, strays, List.getElem?_eq_none outside,
      List.getElem?_eq_none (Nat.le_of_lt beyond)]

/-- Without a terminator in the last position all symbols must be nibbles. -/
theorem outOfPlace_of_getLast?_ne {symbols : List UInt8}
    (notClosed : symbols.getLast? ≠ some terminator) : outOfPlace symbols = strays symbols := by
  ext index
  refine exists_congr fun value => and_congr_right fun found => and_iff_left ?_
  rintro ⟨rfl, isLast⟩
  rw [List.getLast?_eq_getElem?, ← isLast, Nat.add_sub_cancel] at notClosed
  exact notClosed found

/-- A terminator behind the symbols does not change which of them is blamed. -/
theorem blames_append {front : List UInt8} (back : List UInt8) {error : PathError} :
    Blames (front ++ back) (strays front) error ↔ Blames front (strays front) error := by
  refine exists_congr fun index => exists_congr fun value => and_congr_right fun least => ?_
  obtain ⟨other, found, _⟩ := least.1
  rw [List.getElem?_append_left (List.getElem?_eq_some_iff.mp found).1]

/-- Symbols are refused for the first one that is out of place in a path. -/
theorem packSymbols_eq_error_iff {symbols : List UInt8} {error : PathError} :
    packSymbols symbols = .error error ↔ Blames symbols (outOfPlace symbols) error := by
  rw [packSymbols, map_eq_error_iff, ofSymbols]
  split
  · rename_i closed
    obtain ⟨front, rfl⟩ : ∃ front, symbols = front ++ [terminator] :=
      ⟨symbols.dropLast, (List.dropLast_append_getLast? _ closed).symm⟩
    rw [map_eq_error_iff, List.dropLast_concat, readNibbles_zero_eq_error_iff,
      outOfPlace_concat_terminator, blames_append]
  · rename_i notClosed
    rw [map_eq_error_iff, readNibbles_zero_eq_error_iff, outOfPlace_of_getLast?_ne notClosed]

/-- An odd number of symbols is noticed first.  An even number is refused for the
first that is no nibble, be it a terminator in the last position. -/
theorem bytesOfSymbols_eq_error_iff {symbols : List UInt8} {error : PathError} :
    bytesOfSymbols symbols = .error error ↔
      (symbols.length % 2 = 1 ∧ error = .oddLength symbols.length) ∨
      (symbols.length % 2 = 0 ∧ Blames symbols (strays symbols) error) := by
  rw [bytesOfSymbols]
  rcases Nat.mod_two_eq_zero_or_one symbols.length with even | odd
  · rw [if_neg (by omega), map_eq_error_iff, readNibbles_zero_eq_error_iff]
    simp [even]
  · simp [odd, eq_comm]

/-! ## Packed paths -/

/-- A packed path is refused for a flag that is none, or for what stands beside the
flag of an even path.  Both are halves of the first byte. -/
theorem unpackSymbols_cons_eq_error_iff {head : UInt8} {rest : Bytes} {error : PathError} :
    unpackSymbols (head :: rest) = .error error ↔
      (ofFlag? (Nibble.high head) = none ∧ error = .invalidFlag (Nibble.high head)) ∨
      ((∃ terminated, ofFlag? (Nibble.high head) = some (terminated, false)) ∧
        Nibble.low head ≠ 0 ∧ error = .nonZeroPadding (Nibble.low head)) := by
  rw [unpackSymbols, map_eq_error_iff, unpack]
  split
  · rename_i unknown
    simp [unknown, eq_comm]
  · rename_i terminated odd
    simp [odd]
  · rename_i terminated even
    by_cases padding : Nibble.low head = 0
    · simp [even, padding]
    · simp [even, padding, eq_comm]

/-! ## The main result -/

/-- A refusal points at what it is for.

* A list of symbols is no path for the least index of a symbol above 15 that is
  not a terminator in the last position.  The error is a misplaced terminator if
  the symbol there is one, and gives its value otherwise.
* An odd number of symbols makes no bytes, whatever they are.  An even number does
  not for the least index of a symbol above 15, in the last position too.
* Byte strings that begin with the same byte are unpacked both, or refused both and
  for the same reason. -/
theorem refusals_blame_first_offender :
    (∀ (symbols : List UInt8) (error : PathError), packSymbols symbols = .error error ↔
      Blames symbols (outOfPlace symbols) error) ∧
    (∀ (symbols : List UInt8) (error : PathError), bytesOfSymbols symbols = .error error ↔
      (symbols.length % 2 = 1 ∧ error = .oddLength symbols.length) ∨
      (symbols.length % 2 = 0 ∧ Blames symbols (strays symbols) error)) ∧
    ∀ (head : UInt8) (first second : Bytes),
      ((∃ symbols, unpackSymbols (head :: first) = .ok symbols) ∧
        ∃ symbols, unpackSymbols (head :: second) = .ok symbols) ∨
      ∃ error, unpackSymbols (head :: first) = .error error ∧
        unpackSymbols (head :: second) = .error error := by
  refine ⟨fun _ _ => packSymbols_eq_error_iff, fun _ _ => bytesOfSymbols_eq_error_iff, ?_⟩
  intro head first second
  have alike (error : PathError) : unpackSymbols (head :: first) = .error error ↔
      unpackSymbols (head :: second) = .error error := by
    rw [unpackSymbols_cons_eq_error_iff, unpackSymbols_cons_eq_error_iff]
  cases unpacked : unpackSymbols (head :: first) with
  | error error => exact .inr ⟨error, rfl, (alike error).mp unpacked⟩
  | ok symbols =>
      cases other : unpackSymbols (head :: second) with
      | ok others => exact .inl ⟨⟨symbols, rfl⟩, others, rfl⟩
      | error error =>
          rw [(alike error).mpr other] at unpacked
          cases unpacked

example : packSymbols [1, 17, 16, 2, 16] = .error (.invalidNibble 1 17) := rfl

example : bytesOfSymbols [1, 2, 3, 16] = .error (.misplacedTerminator 3) := rfl

end Path

end PathStore
