import Mathlib.Data.List.Basic
import PathStore.Path.Packed
import PathStore.Proofs.Results

/-!
# Packing and unpacking are inverse

A list of symbols writes out a path if its symbols are nibbles, except that the
last one may be the terminator.  Exactly these lists are packed, exactly their
packed forms are unpacked, and the two directions undo each other: no two paths
share a packed form, and no path has two of them.
-/

namespace PathStore.Path

/-- The symbols write out a path: all but the last are nibbles, and the last is
a nibble or the terminator. -/
def IsPath (symbols : List UInt8) : Prop :=
  (∀ value ∈ symbols.dropLast, value < terminator) ∧
    ∀ last ∈ symbols.getLast?, last ≤ terminator

instance (symbols : List UInt8) : Decidable (IsPath symbols) :=
  @instDecidableAnd _ _ (List.decidableBAll (· < terminator) symbols.dropLast)
    (Option.decidableForallMem symbols.getLast?)

/-! ## Symbols -/

theorem symbol_lt_terminator (n : Nibble) : symbol n < terminator := by
  rw [UInt8.lt_iff_toNat_lt, toNat_symbol]
  exact n.isLt

/-- The symbols below the terminator are those of the nibbles. -/
theorem exists_symbol_eq {value : UInt8} (small : value < terminator) :
    ∃ n, symbol n = value := by
  refine ⟨⟨value.toNat, UInt8.lt_iff_toNat_lt.mp small⟩, UInt8.toNat.inj ?_⟩
  rw [toNat_symbol]

theorem exists_map_symbol_eq {symbols : List UInt8}
    (small : ∀ value ∈ symbols, value < terminator) :
    ∃ nibbles : List Nibble, nibbles.map symbol = symbols := by
  induction symbols with
  | nil => exact ⟨[], rfl⟩
  | cons value rest ih =>
      rcases exists_symbol_eq (small value List.mem_cons_self) with ⟨n, rfl⟩
      rcases ih fun other member => small other (List.mem_cons_of_mem _ member) with
        ⟨nibbles, rfl⟩
      exact ⟨n :: nibbles, rfl⟩

/-- Symbols are read as nibbles exactly if they are those of the nibbles. -/
theorem readNibbles_eq_ok_iff {index : Nat} {symbols : List UInt8} {nibbles : List Nibble} :
    readNibbles index symbols = .ok nibbles ↔ symbols = nibbles.map symbol := by
  constructor
  · intro done
    induction symbols generalizing index nibbles with
    | nil =>
        cases done
        rfl
    | cons value rest ih =>
        rw [readNibbles] at done
        split at done
        · cases done
        · split at done
          · rename_i small
            rcases map_eq_ok_iff.mp done with ⟨tail, inner, rfl⟩
            have same : value = symbol ⟨value.toNat, small⟩ :=
              UInt8.toNat.inj (toNat_symbol ⟨value.toNat, small⟩).symm
            rw [List.map_cons, ← same, ih inner]
          · cases done
  · rintro rfl
    exact readNibbles_symbols index nibbles

/-- A path is read exactly from its own symbols. -/
theorem ofSymbols_eq_ok_iff {symbols : List UInt8} {path : Path} :
    ofSymbols symbols = .ok path ↔ symbols = path.symbols := by
  constructor
  · intro done
    rw [ofSymbols] at done
    split at done
    · rename_i closed
      rcases map_eq_ok_iff.mp done with ⟨nibbles, inner, rfl⟩
      rw [Path.symbols, if_pos rfl, ← readNibbles_eq_ok_iff.mp inner]
      exact (List.dropLast_append_getLast? _ closed).symm
    · rcases map_eq_ok_iff.mp done with ⟨nibbles, inner, rfl⟩
      rw [Path.symbols, if_neg Bool.false_ne_true, List.append_nil]
      exact readNibbles_eq_ok_iff.mp inner
  · rintro rfl
    exact ofSymbols_symbols path

/-- The lists that write out a path are those of the symbols of a path. -/
theorem isPath_iff {symbols : List UInt8} :
    IsPath symbols ↔ ∃ path : Path, symbols = path.symbols := by
  constructor
  · rintro ⟨nibblesFirst, lastFits⟩
    rcases List.eq_nil_or_concat symbols with rfl | ⟨front, last, rfl⟩
    · exact ⟨⟨[], false⟩, rfl⟩
    · rw [List.concat_eq_append] at nibblesFirst lastFits ⊢
      rw [List.dropLast_concat] at nibblesFirst
      rcases exists_map_symbol_eq nibblesFirst with ⟨nibbles, rfl⟩
      have fits : last ≤ terminator := lastFits last List.getLast?_concat
      rcases UInt8.le_iff_lt_or_eq.mp fits with small | rfl
      · rcases exists_symbol_eq small with ⟨n, rfl⟩
        exact ⟨⟨nibbles ++ [n], false⟩, by simp [Path.symbols]⟩
      · exact ⟨⟨nibbles, true⟩, rfl⟩
  · rintro ⟨⟨nibbles, terminated⟩, rfl⟩
    have small : ∀ value ∈ nibbles.map symbol, value < terminator := by
      intro value member
      rcases List.mem_map.mp member with ⟨n, _, rfl⟩
      exact symbol_lt_terminator n
    cases terminated with
    | true => simpa [IsPath, Path.symbols] using small
    | false =>
        rw [Path.symbols, if_neg Bool.false_ne_true, List.append_nil]
        constructor
        · intro value member
          exact small value ((List.dropLast_sublist _).subset member)
        · intro last isLast
          exact UInt8.le_of_lt (small last (List.mem_of_getLast? isLast))

/-! ## Packed forms -/

theorem ofFlag?_eq_some_iff {given : Nibble} {terminated odd : Bool} :
    ofFlag? given = some (terminated, odd) ↔ given = flag terminated odd := by
  revert given
  cases terminated <;> cases odd <;> decide

/-- An odd path keeps its first nibble beside the flag. -/
theorem pack_odd (first : Nibble) {rest : List Nibble} (even : rest.length % 2 = 0)
    (terminated : Bool) :
    (⟨first :: rest, terminated⟩ : Path).pack =
      Nibble.byte (flag terminated true) first :: Nibble.pair rest := by
  have odd : (first :: rest).length % 2 = 1 := by
    rw [List.length_cons]
    omega
  simp only [pack, odd]

/-- An even path keeps zero there. -/
theorem pack_even {nibbles : List Nibble} (even : nibbles.length % 2 = 0) (terminated : Bool) :
    (⟨nibbles, terminated⟩ : Path).pack =
      Nibble.byte (flag terminated false) 0 :: Nibble.pair nibbles := by
  simp only [pack, even]

theorem even_length_expand (bytes : Bytes) : (Nibble.expand bytes).length % 2 = 0 := by
  rw [Nibble.expand, List.length_flatMap]
  simp

/-- A path is unpacked exactly from its own packed form. -/
theorem unpack_eq_ok_iff {packed : Bytes} {path : Path} :
    unpack packed = .ok path ↔ packed = path.pack := by
  constructor
  · intro done
    cases packed with
    | nil => cases done
    | cons head rest =>
        rw [unpack] at done
        split at done
        · cases done
        · rename_i terminated known
          cases done
          rw [pack_odd _ (even_length_expand rest), ← ofFlag?_eq_some_iff.mp known,
            Nibble.byte_high_low, Nibble.pair_expand]
        · rename_i terminated known
          split at done
          · rename_i padding
            cases done
            rw [pack_even (even_length_expand rest), ← ofFlag?_eq_some_iff.mp known, ← padding,
              Nibble.byte_high_low, Nibble.pair_expand]
          · cases done
  · rintro rfl
    exact unpack_pack path

/-! ## The two directions -/

theorem packSymbols_eq_ok_iff {symbols : List UInt8} {packed : Bytes} :
    packSymbols symbols = .ok packed ↔
      ∃ path : Path, symbols = path.symbols ∧ path.pack = packed := by
  rw [packSymbols, map_eq_ok_iff]
  exact exists_congr fun path => and_congr_left fun _ => ofSymbols_eq_ok_iff

theorem unpackSymbols_eq_ok_iff {packed : Bytes} {symbols : List UInt8} :
    unpackSymbols packed = .ok symbols ↔
      ∃ path : Path, packed = path.pack ∧ path.symbols = symbols := by
  rw [unpackSymbols, map_eq_ok_iff]
  exact exists_congr fun path => and_congr_left fun _ => unpack_eq_ok_iff

/-- Unpacking is packing read backwards. -/
theorem unpackSymbols_eq_ok_iff_packSymbols {packed : Bytes} {symbols : List UInt8} :
    unpackSymbols packed = .ok symbols ↔ packSymbols symbols = .ok packed := by
  rw [unpackSymbols_eq_ok_iff, packSymbols_eq_ok_iff]
  refine exists_congr fun path => ?_
  rw [and_comm, eq_comm, eq_comm (a := packed)]

theorem exists_packSymbols_iff {symbols : List UInt8} :
    (∃ packed, packSymbols symbols = .ok packed) ↔ IsPath symbols := by
  simp only [packSymbols_eq_ok_iff, isPath_iff]
  constructor
  · rintro ⟨packed, path, written, _⟩
    exact ⟨path, written⟩
  · rintro ⟨path, written⟩
    exact ⟨path.pack, path, written, rfl⟩

/-- Packing and unpacking are inverse bijections between the lists of symbols
that write out a path and the byte strings that unpacking accepts. -/
theorem packSymbols_unpackSymbols_inverse :
    (∀ symbols, (∃ packed, packSymbols symbols = .ok packed) ↔ IsPath symbols) ∧
    (∀ symbols, IsPath symbols → (packSymbols symbols >>= unpackSymbols) = .ok symbols) ∧
    (∀ packed, (∃ symbols, unpackSymbols packed = .ok symbols) ↔
      ∃ symbols, IsPath symbols ∧ packSymbols symbols = .ok packed) ∧
    (∀ packed symbols, unpackSymbols packed = .ok symbols →
      IsPath symbols ∧ packSymbols symbols = .ok packed) ∧
    (∀ first second packed, packSymbols first = .ok packed → packSymbols second = .ok packed →
      first = second) ∧
    ∀ first second symbols, unpackSymbols first = .ok symbols →
      unpackSymbols second = .ok symbols → first = second := by
  have back : ∀ packed symbols, unpackSymbols packed = .ok symbols →
      IsPath symbols ∧ packSymbols symbols = .ok packed := by
    intro packed symbols unpacked
    have again := unpackSymbols_eq_ok_iff_packSymbols.mp unpacked
    exact ⟨exists_packSymbols_iff.mp ⟨packed, again⟩, again⟩
  refine ⟨fun symbols => exists_packSymbols_iff, ?_, ?_, back, ?_, ?_⟩
  · intro symbols isPath
    rcases exists_packSymbols_iff.mpr isPath with ⟨packed, done⟩
    rw [done]
    exact unpackSymbols_eq_ok_iff_packSymbols.mpr done
  · intro packed
    constructor
    · rintro ⟨symbols, unpacked⟩
      exact ⟨symbols, back packed symbols unpacked⟩
    · rintro ⟨symbols, _, done⟩
      exact ⟨symbols, unpackSymbols_eq_ok_iff_packSymbols.mpr done⟩
  · intro first second packed firstPacked secondPacked
    have unpacked := unpackSymbols_eq_ok_iff_packSymbols.mpr firstPacked
    rw [unpackSymbols_eq_ok_iff_packSymbols.mpr secondPacked] at unpacked
    exact (Except.ok.inj unpacked).symm
  · intro first second symbols firstUnpacked secondUnpacked
    have packed := (back first symbols firstUnpacked).2
    rw [(back second symbols secondUnpacked).2] at packed
    exact (Except.ok.inj packed).symm

/-- A closed path of five nibbles, the first of which stands beside the flag. -/
theorem packSymbols_unpackSymbols_inverse_closedOdd :
    IsPath [15, 1, 12, 11, 8, 16] ∧
      packSymbols [15, 1, 12, 11, 8, 16] = .ok [0x3f, 0x1c, 0xb8] ∧
      unpackSymbols [0x3f, 0x1c, 0xb8] = .ok [15, 1, 12, 11, 8, 16] ∧
      (packSymbols [15, 1, 12, 11, 8, 16] >>= unpackSymbols) = .ok [15, 1, 12, 11, 8, 16] := by
  have isPath : IsPath [15, 1, 12, 11, 8, 16] := by decide
  have unpacked : unpackSymbols [0x3f, 0x1c, 0xb8] = .ok [15, 1, 12, 11, 8, 16] := rfl
  rcases packSymbols_unpackSymbols_inverse with ⟨_, forth, _, back, _⟩
  exact ⟨isPath, (back _ _ unpacked).2, unpacked, forth _ isPath⟩

end PathStore.Path
