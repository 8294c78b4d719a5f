import PathStore.Proofs.Packing

/-!
# Bytes and their nibbles

Every byte is written as two symbols, its upper half first.  The lists that are
joined to bytes are exactly those that bytes are written as: nibbles, an even
number of them.  So a byte string comes back from its symbols, and symbols come
back from the byte string that they make.  A terminator behind the symbols of a
byte string makes their number odd, and nothing is joined.
-/

namespace PathStore.Path

/-! ## The symbols of bytes -/

theorem symbol_high (b : UInt8) : symbol (Nibble.high b) = b >>> (4 : UInt8) := by
  apply UInt8.toNat.inj
  rw [toNat_symbol, UInt8.toNat_shiftRight]
  exact (Nat.shiftRight_eq_div_pow b.toNat 4).symm

theorem symbol_low (b : UInt8) : symbol (Nibble.low b) = b &&& (0x0f : UInt8) := by
  apply UInt8.toNat.inj
  rw [toNat_symbol, UInt8.toNat_and]
  exact (Nat.and_two_pow_sub_one_eq_mod b.toNat 4).symm

/-- A byte is split by a shift and a mask. -/
theorem map_symbol_expand (bytes : Bytes) :
    (Nibble.expand bytes).map symbol =
      bytes.flatMap fun b => [b >>> (4 : UInt8), b &&& (0x0f : UInt8)] := by
  simp only [Nibble.expand, List.map_flatMap, List.map_cons, List.map_nil, symbol_high, symbol_low]

theorem symbols_ofBytes_open (bytes : Bytes) :
    (ofBytes bytes false).symbols = (Nibble.expand bytes).map symbol :=
  List.append_nil _

theorem length_symbols_ofBytes_closed (bytes : Bytes) :
    (ofBytes bytes true).symbols.length = 2 * bytes.length + 1 := by
  simp [symbols, ofBytes, Nibble.expand, Nat.mul_comm]

/-! ## The bytes of symbols -/

/-- Symbols are joined exactly to the bytes that they are the symbols of. -/
theorem bytesOfSymbols_eq_ok_iff {symbols : List UInt8} {bytes : Bytes} :
    bytesOfSymbols symbols = .ok bytes ↔ symbols = (ofBytes bytes false).symbols := by
  rw [symbols_ofBytes_open]
  constructor
  · intro done
    rw [bytesOfSymbols] at done
    split at done
    · cases done
    · rename_i notOdd
      obtain ⟨nibbles, read, rfl⟩ := map_eq_ok_iff.mp done
      obtain rfl := readNibbles_eq_ok_iff.mp read
      rw [List.length_map] at notOdd
      rw [Nibble.expand_pair (Nat.mod_two_ne_one.mp notOdd)]
  · rintro rfl
    have even : ((Nibble.expand bytes).map symbol).length % 2 = 0 := by
      rw [List.length_map, even_length_expand]
    rw [bytesOfSymbols, if_neg (by omega), readNibbles_symbols]
    exact congrArg Except.ok (Nibble.pair_expand bytes)

/-- Nibbles that come in pairs are those of a byte string. -/
theorem exists_eq_symbols_ofBytes_iff {symbols : List UInt8} :
    (∃ bytes : Bytes, symbols = (ofBytes bytes false).symbols) ↔
      symbols.length % 2 = 0 ∧ ∀ value ∈ symbols, value < 16 := by
  constructor
  · rintro ⟨bytes, rfl⟩
    rw [symbols_ofBytes_open, List.length_map]
    refine ⟨even_length_expand bytes, fun value member => ?_⟩
    obtain ⟨n, _, rfl⟩ := List.mem_map.mp member
    exact symbol_lt_terminator n
  · rintro ⟨even, small⟩
    obtain ⟨nibbles, rfl⟩ := exists_map_symbol_eq small
    rw [List.length_map] at even
    exact ⟨Nibble.pair nibbles, by rw [symbols_ofBytes_open, Nibble.expand_pair even]⟩

/-! ## The main result -/

/-- Bytes and pairs of nibbles are the same thing.

* A byte is written as its upper four bits and then its lower four.
* Exactly the lists of even length that hold nibbles only are joined to bytes.
* A byte string is joined from its own symbols.
* Symbols that are joined are those of the bytes that they make.
* With a terminator behind them the symbols of no byte string are joined: their
  number is odd. -/
theorem bytesOfSymbols_symbols_inverse :
    (∀ bytes : Bytes, (ofBytes bytes false).symbols =
      bytes.flatMap fun b => [b >>> (4 : UInt8), b &&& (0x0f : UInt8)]) ∧
    (∀ symbols : List UInt8, (∃ bytes, bytesOfSymbols symbols = .ok bytes) ↔
      symbols.length % 2 = 0 ∧ ∀ value ∈ symbols, value < 16) ∧
    (∀ bytes : Bytes, bytesOfSymbols (ofBytes bytes false).symbols = .ok bytes) ∧
    (∀ (symbols : List UInt8) (bytes : Bytes), bytesOfSymbols symbols = .ok bytes →
      (ofBytes bytes false).symbols = symbols) ∧
    ∀ bytes : Bytes, bytesOfSymbols (ofBytes bytes true).symbols =
      .error (.oddLength (2 * bytes.length + 1)) := by
  refine ⟨?written, ?accepted, ?forth, ?back, ?closed⟩
  case written =>
    intro bytes
    rw [symbols_ofBytes_open, map_symbol_expand]
  case accepted =>
    intro symbols
    simp only [bytesOfSymbols_eq_ok_iff]
    exact exists_eq_symbols_ofBytes_iff
  case forth =>
    intro bytes
    exact bytesOfSymbols_eq_ok_iff.mpr rfl
  case back =>
    intro symbols bytes joined
    exact (bytesOfSymbols_eq_ok_iff.mp joined).symm
  case closed =>
    intro bytes
    have odd : (2 * bytes.length + 1) % 2 = 1 := by omega
    rw [bytesOfSymbols, length_symbols_ofBytes_closed, if_pos odd]

/-- Two bytes from their four nibbles, and back. -/
theorem bytesOfSymbols_symbols_inverse_twoBytes :
    bytesOfSymbols [13, 14, 0, 15] = .ok [0xde, 0x0f] ∧
      (ofBytes [0xde, 0x0f] false).symbols = [13, 14, 0, 15] := by
  obtain ⟨-, -, -, back, -⟩ := bytesOfSymbols_symbols_inverse
  have joined : bytesOfSymbols [13, 14, 0, 15] = .ok [0xde, 0x0f] := rfl
  exact ⟨joined, back _ _ joined⟩

end PathStore.Path
