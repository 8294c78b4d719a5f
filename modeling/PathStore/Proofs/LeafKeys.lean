import PathStore.Proofs.KeyOrder

/-!
# Whole bytes behind a path

A packed path has whole bytes behind its first one, whatever the number of its
nibbles: the first byte takes up one nibble or none, so that the others come in
pairs.  Bytes that are appended to the path are therefore appended to its packed
form as they are.  The terminator is one bit of the first byte and touches none
of the others.

The path of a leaf is all of its bytes, closed.  Its key is those bytes behind a
byte that is the same for all leaves, so keys of leaves are compared like the
bytes that they were made from.
-/

namespace PathStore

/-! ## Bytes behind a path -/

namespace Nibble

/-- Nibbles that come in pairs are joined apart from those behind them. -/
theorem pair_append {front : List Nibble} (even : front.length % 2 = 0) (back : List Nibble) :
    pair (front ++ back) = pair front ++ pair back := by
  fun_induction pair front with
  | case1 first second rest ih =>
      rw [List.cons_append, List.cons_append, pair,
        ih ((Nat.add_mod_right _ 2).symm.trans even), List.cons_append]
  | case2 front short =>
      match front, short with
      | [], _ => rfl
      | [_], _ => contradiction
      | first :: second :: rest, short => exact absurd rfl (short first second rest)

theorem pair_append_expand {front : List Nibble} (even : front.length % 2 = 0) (bytes : Bytes) :
    pair (front ++ expand bytes) = pair front ++ bytes := by
  rw [pair_append even, pair_expand]

end Nibble

namespace Path

/-- Bytes behind a path stand unchanged behind its packed form. -/
theorem pack_append_expand (nibbles : List Nibble) (bytes : Bytes) (terminated : Bool) :
    (⟨nibbles ++ Nibble.expand bytes, terminated⟩ : Path).pack =
      (⟨nibbles, terminated⟩ : Path).pack ++ bytes := by
  have whole := even_length_expand bytes
  rcases Nat.mod_two_eq_zero_or_one nibbles.length with even | odd
  · have evenStill : (nibbles ++ Nibble.expand bytes).length % 2 = 0 := by
      rw [List.length_append]
      omega
    rw [pack_even evenStill, pack_even even, Nibble.pair_append_expand even, List.cons_append]
  · cases nibbles with
    | nil => cases odd
    | cons first rest =>
        have even : rest.length % 2 = 0 := by
          rw [List.length_cons] at odd
          omega
        have evenStill : (rest ++ Nibble.expand bytes).length % 2 = 0 := by
          rw [List.length_append]
          omega
        rw [List.cons_append, pack_odd first evenStill, pack_odd first even,
          Nibble.pair_append_expand even, List.cons_append]

/-- The bit of the flag byte that says that a path is terminated. -/
def terminatorBit : UInt8 := (1 : UInt8) <<< (5 : UInt8)

theorem byte_flag (odd : Bool) (n : Nibble) :
    Nibble.byte (flag false odd) n &&& terminatorBit = 0 ∧
      Nibble.byte (flag true odd) n = Nibble.byte (flag false odd) n ||| terminatorBit := by
  revert n
  cases odd <;> decide

/-- A terminator sets one bit of the first byte and leaves all other bits as they
are. -/
theorem exists_pack_terminated (nibbles : List Nibble) :
    ∃ first rest, (⟨nibbles, false⟩ : Path).pack = first :: rest ∧ first &&& terminatorBit = 0 ∧
      (⟨nibbles, true⟩ : Path).pack = (first ||| terminatorBit) :: rest := by
  rcases Nat.mod_two_eq_zero_or_one nibbles.length with even | odd
  · rw [pack_even even, pack_even even, (byte_flag false 0).2]
    exact ⟨_, _, rfl, (byte_flag false 0).1, rfl⟩
  · cases nibbles with
    | nil => cases odd
    | cons n rest =>
        have even : rest.length % 2 = 0 := by
          rw [List.length_cons] at odd
          omega
        rw [pack_odd n even, pack_odd n even, (byte_flag true n).2]
        exact ⟨_, _, rfl, (byte_flag true n).1, rfl⟩

/-- The bytes of a leaf stand behind a byte that is the same for all leaves. -/
theorem pack_ofBytes (bytes : Bytes) : (ofBytes bytes true).pack = 0x20 :: bytes :=
  pack_append_expand [] bytes true

theorem packSymbols_ofBytes_eq_ok_iff {bytes key : Bytes} :
    packSymbols (ofBytes bytes true).symbols = .ok key ↔ key = 0x20 :: bytes := by
  rw [packSymbols, ofSymbols_symbols, Except.map, pack_ofBytes, Except.ok.injEq, eq_comm]

/-! ## The main result -/

/-- Appending whole bytes to a path is appending them to its packed form.

* Nibbles without a terminator, odd or even in number, are packed with the bytes
  behind them as without them, and the bytes follow.  A terminator behind the
  bytes sets the fifth bit of the first byte, which was not set, and changes
  nothing else.
* What unpacks does so with bytes behind it: its data, then the nibbles of the
  bytes, then the terminator if it had one.
* The key of a leaf is its bytes behind `0x20`.  Keys of leaves are equal only for
  equal bytes, and they are ordered as the bytes are. -/
theorem packSymbols_append_bytes :
    (∀ nibbles : List UInt8, (∀ value ∈ nibbles, value < terminator) → ∀ bytes : Bytes,
      ∃ packed first rest, packSymbols nibbles = .ok packed ∧
        packSymbols (nibbles ++ (ofBytes bytes false).symbols) = .ok (packed ++ bytes) ∧
        packed ++ bytes = first :: rest ∧ first &&& terminatorBit = 0 ∧
        packSymbols (nibbles ++ (ofBytes bytes true).symbols) =
          .ok ((first ||| terminatorBit) :: rest)) ∧
    (∀ packed symbols, unpackSymbols packed = .ok symbols →
      ∃ (data : List UInt8) (terminated : Bool),
        (∀ value ∈ data, value < terminator) ∧
        symbols = data ++ (if terminated then [terminator] else []) ∧
        ∀ bytes : Bytes, unpackSymbols (packed ++ bytes) =
          .ok (data ++ (ofBytes bytes false).symbols ++
            if terminated then [terminator] else [])) ∧
    (∀ bytes : Bytes, packSymbols (ofBytes bytes true).symbols = .ok (0x20 :: bytes)) ∧
    (∀ first second : Bytes,
      packSymbols (ofBytes first true).symbols = packSymbols (ofBytes second true).symbols →
        first = second) ∧
    ∀ (first second : Bytes) (firstKey secondKey : Key),
      packSymbols (ofBytes first true).symbols = .ok firstKey.bytes →
      packSymbols (ofBytes second true).symbols = .ok secondKey.bytes →
        (compare firstKey secondKey = .lt ↔ first < second) ∧
        (compare firstKey secondKey = .eq ↔ first = second) ∧
        (compare firstKey secondKey = .gt ↔ second < first) := by
  refine ⟨?packed, ?unpacked, ?leaf, ?distinct, ?ordered⟩
  case packed =>
    intro symbols small bytes
    obtain ⟨nibbles, rfl⟩ := exists_map_symbol_eq small
    obtain ⟨first, rest, openForm, unset, closedForm⟩ :=
      exists_pack_terminated (nibbles ++ Nibble.expand bytes)
    have bytesBehind := pack_append_expand nibbles bytes false
    refine ⟨(⟨nibbles, false⟩ : Path).pack, first, rest, ?_, ?_, ?_, unset, ?_⟩
    · exact packSymbols_eq_ok_iff.mpr ⟨⟨nibbles, false⟩, by simp [Path.symbols], rfl⟩
    · exact packSymbols_eq_ok_iff.mpr
        ⟨⟨nibbles ++ Nibble.expand bytes, false⟩, by simp [Path.symbols, ofBytes], bytesBehind⟩
    · rw [← bytesBehind, openForm]
    · exact packSymbols_eq_ok_iff.mpr
        ⟨⟨nibbles ++ Nibble.expand bytes, true⟩, by simp [Path.symbols, ofBytes], closedForm⟩
  case unpacked =>
    intro packed symbols unpacks
    obtain ⟨⟨nibbles, terminated⟩, rfl, rfl⟩ := unpackSymbols_eq_ok_iff.mp unpacks
    refine ⟨nibbles.map symbol, terminated, ?_, rfl, ?_⟩
    · intro value member
      obtain ⟨n, _, rfl⟩ := List.mem_map.mp member
      exact symbol_lt_terminator n
    · intro bytes
      exact unpackSymbols_eq_ok_iff.mpr ⟨⟨nibbles ++ Nibble.expand bytes, terminated⟩,
        (pack_append_expand nibbles bytes terminated).symm, by simp [Path.symbols, ofBytes]⟩
  case leaf =>
    intro bytes
    exact packSymbols_ofBytes_eq_ok_iff.mpr rfl
  case distinct =>
    intro first second same
    rw [packSymbols_ofBytes_eq_ok_iff.mpr rfl] at same
    exact (List.cons.inj (packSymbols_ofBytes_eq_ok_iff.mp same.symm)).2
  case ordered =>
    intro first second firstKey secondKey isFirst isSecond
    have compared : compare firstKey secondKey = Key.order first second := by
      change Key.order firstKey.bytes secondKey.bytes = _
      rw [packSymbols_ofBytes_eq_ok_iff.mp isFirst, packSymbols_ofBytes_eq_ok_iff.mp isSecond]
      rfl
    rw [compared]
    exact ⟨Key.order_eq_lt_iff, Key.order_eq_eq_iff, Key.order_eq_gt_iff⟩

/-- An odd path with two bytes behind it, an even packed form that is closed with
one byte behind it, and the keys of two leaves, one of which begins the other. -/
theorem packSymbols_append_bytes_bothParities :
    (∃ packed first rest, packSymbols [1, 2, 3] = .ok packed ∧
      packSymbols [1, 2, 3, 10, 11, 12, 13] = .ok (packed ++ [0xab, 0xcd]) ∧
      packed ++ [0xab, 0xcd] = first :: rest ∧ first &&& terminatorBit = 0 ∧
      packSymbols [1, 2, 3, 10, 11, 12, 13, 16] = .ok ((first ||| terminatorBit) :: rest)) ∧
    unpackSymbols [0x20, 0x0f] = .ok [0, 15, 16] ∧
    (∃ (data : List UInt8) (terminated : Bool),
      [0, 15, 16] = data ++ (if terminated then [terminator] else []) ∧
      unpackSymbols [0x20, 0x0f, 0xab] =
        .ok (data ++ [10, 11] ++ if terminated then [terminator] else [])) ∧
    (compare (⟨[0x20, 0xab]⟩ : Key) ⟨[0x20, 0xab, 0]⟩ = .lt ↔ ([0xab] : Bytes) < [0xab, 0]) := by
  have unpacks : unpackSymbols [0x20, 0x0f] = .ok [0, 15, 16] := rfl
  obtain ⟨packs, unpacked, leaf, -, ordered⟩ := packSymbols_append_bytes
  obtain ⟨data, terminated, -, split, further⟩ := unpacked _ _ unpacks
  exact ⟨packs [1, 2, 3] (by simp [terminator]) [0xab, 0xcd], unpacks,
    ⟨data, terminated, split, further [0xab]⟩,
    (ordered [0xab] [0xab, 0] ⟨[0x20, 0xab]⟩ ⟨[0x20, 0xab, 0]⟩ (leaf _) (leaf _)).1⟩

end Path

end PathStore
