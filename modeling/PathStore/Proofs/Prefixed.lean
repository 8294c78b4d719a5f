import PathStore.Proofs.Packing

/-!
# The packed form with the flag in front

The packed form of a path can be described without treating its first byte
apart.  The flag is put in front of the nibbles, with a zero behind it if their
number is even, and the whole is joined two by two; backwards, every byte is
split in two, the first one included, and the flag is taken off.  The
description computes with natural numbers, which never overflow.  Packing and
unpacking agree with it number for number.
-/

namespace PathStore

/-! ## The description -/

namespace Prefixed

/-- The number that closes a path. -/
def terminator : Nat := 16

/-- The numbers of a path without the one that closes it. -/
def data (numbers : List Nat) : List Nat :=
  if numbers.getLast? = some terminator then numbers.dropLast else numbers

/-- Two for a path that is closed, and one more for an odd number of nibbles. -/
def flag (numbers : List Nat) : Nat :=
  2 * (if numbers.getLast? = some terminator then 1 else 0) + (data numbers).length % 2

/-- The nibbles behind their flag, an even number of them in all. -/
def withFlag (numbers : List Nat) : List Nat :=
  if (data numbers).length % 2 = 1 then flag numbers :: data numbers
  else flag numbers :: 0 :: data numbers

/-- Joins numbers two by two. -/
def join : List Nat → List Nat
  | first :: second :: rest => (16 * first + second) :: join rest
  | _ => []

/-- The bytes of a path. -/
def encode (numbers : List Nat) : List Nat :=
  join (withFlag numbers)

/-- Splits every number in two. -/
def split (numbers : List Nat) : List Nat :=
  numbers.flatMap fun number => [number / 16, number % 16]

/-- The path of a string of bytes. -/
def decode (bytes : List Nat) : List Nat :=
  let flag := (split bytes).headD 0
  (split bytes).drop (if flag % 2 = 1 then 1 else 2) ++ if 2 ≤ flag then [terminator] else []

theorem length_join : (numbers : List Nat) → (join numbers).length = numbers.length / 2
  | [] | [_] => by simp [join]
  | first :: second :: rest => by
      simp only [join, List.length_cons, length_join rest]
      omega

/-- The flag takes the place of the first half byte, or of the first byte. -/
theorem length_encode (numbers : List Nat) :
    (encode numbers).length = (data numbers).length / 2 + 1 := by
  rw [encode, length_join, withFlag]
  split <;> simp only [List.length_cons] <;> omega

end Prefixed

/-! ## Nibbles as numbers -/

namespace Nibble

theorem toNat_byte (upper lower : Nibble) :
    (byte upper lower).toNat = 16 * upper.val + lower.val := by
  simp only [byte, UInt8.toNat_ofNat']
  omega

/-- A byte is joined by a shift and an or, and neither loses a bit. -/
theorem byte_eq_shift_or (upper lower : Nibble) :
    byte upper lower = Path.symbol upper <<< 4 ||| Path.symbol lower := by
  revert upper lower
  decide

/-- Joining nibbles is joining their numbers. -/
theorem map_toNat_pair : (nibbles : List Nibble) →
    (pair nibbles).map UInt8.toNat = Prefixed.join (nibbles.map Fin.val)
  | [] | [_] => rfl
  | first :: second :: rest => by
      simp only [pair, List.map_cons, Prefixed.join, toNat_byte, map_toNat_pair rest]

theorem split_map_toNat (bytes : Bytes) :
    Prefixed.split (bytes.map UInt8.toNat) = (expand bytes).map Fin.val := by
  simp [Prefixed.split, expand, List.flatMap_map, List.map_flatMap, high, low]

end Nibble

namespace Path

/-- The numbers of a path. -/
def numbers (path : Path) : List Nat :=
  path.symbols.map UInt8.toNat

/-- The nibbles of a path behind their flag. -/
def flagged (path : Path) : List Nibble :=
  if path.nibbles.length % 2 = 1 then flag path.terminated true :: path.nibbles
  else flag path.terminated false :: ⟨0, Nat.succ_pos _⟩ :: path.nibbles

theorem numbers_eq (path : Path) :
    path.numbers = path.nibbles.map Fin.val ++ if path.terminated then [16] else [] := by
  obtain ⟨nibbles, terminated⟩ := path
  cases terminated <;> simp [numbers, symbols, toNat_symbol, terminator, Function.comp_def]

/-- The last number of a path is the terminator exactly if the path is closed. -/
theorem getLast?_numbers (path : Path) :
    path.numbers.getLast? = some Prefixed.terminator ↔ path.terminated = true := by
  obtain ⟨nibbles, terminated⟩ := path
  rw [numbers_eq]
  cases terminated with
  | true => simp [Prefixed.terminator]
  | false =>
      simp only [Bool.false_eq_true, if_false, List.append_nil, iff_false]
      intro closed
      obtain ⟨n, _, equal⟩ := List.mem_map.mp (List.mem_of_getLast? closed)
      exact absurd equal (Nat.ne_of_lt n.isLt)

theorem data_numbers (path : Path) : Prefixed.data path.numbers = path.nibbles.map Fin.val := by
  rw [Prefixed.data]
  simp only [getLast?_numbers]
  rw [numbers_eq]
  cases path.terminated <;> simp

theorem flag_numbers (path : Path) :
    Prefixed.flag path.numbers =
      2 * path.terminated.toNat + path.nibbles.length % 2 := by
  rw [Prefixed.flag, data_numbers, List.length_map]
  simp only [getLast?_numbers]
  cases path.terminated <;> rfl

theorem val_flag (terminated odd : Bool) :
    (flag terminated odd).val = 2 * terminated.toNat + odd.toNat := by
  cases terminated <;> cases odd <;> rfl

/-- The description puts the flag of the path in front. -/
theorem withFlag_numbers (path : Path) :
    Prefixed.withFlag path.numbers = path.flagged.map Fin.val := by
  rw [Prefixed.withFlag, flag_numbers, data_numbers, List.length_map, flagged]
  split
  · rename_i odd
    simp [odd, val_flag]
  · rename_i even
    simp [Nat.mod_two_ne_one.mp even, val_flag]

theorem even_length_flagged (path : Path) : path.flagged.length % 2 = 0 := by
  rw [flagged]
  split <;> simp only [List.length_cons] <;> omega

/-- The first byte is joined like all others. -/
theorem pack_eq_pair_flagged (path : Path) : path.pack = Nibble.pair path.flagged := by
  obtain ⟨nibbles, terminated⟩ := path
  rcases Nat.mod_two_eq_zero_or_one nibbles.length with even | odd
  · rw [pack_even even, flagged, if_neg (by simp [even])]
    rfl
  · cases nibbles with
    | nil => cases odd
    | cons first rest =>
        have even : rest.length % 2 = 0 := by
          rw [List.length_cons] at odd
          omega
        rw [pack_odd first even, flagged, if_pos odd]
        rfl

theorem map_toNat_pack (path : Path) :
    path.pack.map UInt8.toNat = Prefixed.encode path.numbers := by
  rw [pack_eq_pair_flagged, Nibble.map_toNat_pair, Prefixed.encode, withFlag_numbers]

/-- Splitting the bytes of a path brings back its nibbles behind their flag. -/
theorem split_map_toNat_pack (path : Path) :
    Prefixed.split (path.pack.map UInt8.toNat) = path.flagged.map Fin.val := by
  rw [Nibble.split_map_toNat, pack_eq_pair_flagged, Nibble.expand_pair (even_length_flagged path)]

theorem decode_map_toNat_pack (path : Path) :
    Prefixed.decode (path.pack.map UInt8.toNat) = path.numbers := by
  rw [Prefixed.decode, split_map_toNat_pack, numbers_eq]
  obtain ⟨nibbles, terminated⟩ := path
  rw [flagged]
  cases terminated <;> split <;> simp [val_flag, Prefixed.terminator]

/-! ## The main result -/

/-- Packing gives, number for number, what the description with the flag in
front encodes, and unpacking what it decodes.  A path of `d` nibbles has
`d / 2 + 1` bytes.  All numbers that are joined are nibbles and all that come of
it are bytes, and a byte is joined by a shift and an or that lose no bit. -/
theorem packSymbols_unpackSymbols_eq_prefixed :
    (∀ symbols, IsPath symbols →
      ∃ packed, packSymbols symbols = .ok packed ∧
        packed.map UInt8.toNat = Prefixed.encode (symbols.map UInt8.toNat) ∧
        packed.length = (Prefixed.data (symbols.map UInt8.toNat)).length / 2 + 1 ∧
        (∀ number ∈ Prefixed.withFlag (symbols.map UInt8.toNat), number < 16) ∧
        ∀ number ∈ Prefixed.encode (symbols.map UInt8.toNat), number < 256) ∧
    (∀ packed symbols, unpackSymbols packed = .ok symbols →
      symbols.map UInt8.toNat = Prefixed.decode (packed.map UInt8.toNat)) ∧
    ∀ upper lower : Nibble,
      Nibble.byte upper lower = symbol upper <<< 4 ||| symbol lower ∧
        (symbol upper <<< 4).toNat = 16 * upper.val ∧
        (Nibble.byte upper lower).toNat = 16 * upper.val + lower.val := by
  refine ⟨?_, ?_, ?_⟩
  · intro symbols isPath
    obtain ⟨path, rfl⟩ := isPath_iff.mp isPath
    have encoded : path.pack.map UInt8.toNat = Prefixed.encode (path.symbols.map UInt8.toNat) :=
      map_toNat_pack path
    have flagged : Prefixed.withFlag (path.symbols.map UInt8.toNat) = path.flagged.map Fin.val :=
      withFlag_numbers path
    refine ⟨path.pack, packSymbols_eq_ok_iff.mpr ⟨path, rfl, rfl⟩, encoded, ?_, ?_, ?_⟩
    · rw [← Prefixed.length_encode, ← encoded, List.length_map]
    · intro number isFlagged
      rw [flagged] at isFlagged
      obtain ⟨n, _, rfl⟩ := List.mem_map.mp isFlagged
      exact n.isLt
    · intro number isEncoded
      rw [← encoded] at isEncoded
      obtain ⟨b, _, rfl⟩ := List.mem_map.mp isEncoded
      exact b.toNat_lt
  · intro packed symbols unpacked
    obtain ⟨path, rfl, rfl⟩ := unpackSymbols_eq_ok_iff.mp unpacked
    exact (decode_map_toNat_pack path).symm
  · intro upper lower
    refine ⟨Nibble.byte_eq_shift_or upper lower, ?_, Nibble.toNat_byte upper lower⟩
    revert upper
    decide

/-- A closed path of six nibbles, whose flag byte is filled up with zero, and
the bytes of an open path of five, the first of which stands beside the flag. -/
theorem packSymbols_unpackSymbols_eq_prefixed_bothParities :
    IsPath [0, 15, 1, 12, 11, 8, 16] ∧
      Prefixed.encode [0, 15, 1, 12, 11, 8, 16] = [0x20, 0x0f, 0x1c, 0xb8] ∧
      (∃ packed, packSymbols [0, 15, 1, 12, 11, 8, 16] = .ok packed ∧
        packed.map UInt8.toNat = Prefixed.encode [0, 15, 1, 12, 11, 8, 16] ∧
        packed.length = 4) ∧
      unpackSymbols [0x11, 0x23, 0x45] = .ok [1, 2, 3, 4, 5] ∧
      [1, 2, 3, 4, 5] = Prefixed.decode [0x11, 0x23, 0x45] := by
  have isPath : IsPath [0, 15, 1, 12, 11, 8, 16] := by decide
  have unpacked : unpackSymbols [0x11, 0x23, 0x45] = .ok [1, 2, 3, 4, 5] := rfl
  obtain ⟨encodes, decodes, _⟩ := packSymbols_unpackSymbols_eq_prefixed
  obtain ⟨packed, done, encoded, length_eq, _⟩ := encodes _ isPath
  exact ⟨isPath, rfl, ⟨packed, done, encoded, length_eq⟩, unpacked, decodes _ _ unpacked⟩

end Path

end PathStore
