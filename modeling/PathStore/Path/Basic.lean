import PathStore.Nibble

/-!
# Nibble paths

A path through the store is a sequence of nibbles that may end in a value; it
is then closed by a terminator.  Written out, a path is a list of byte-sized
symbols: each nibble is its own symbol, and the value 16 in the last position
is the terminator.  Every other symbol is refused, by the index of the first
one that is out of place.
-/

namespace PathStore

/-- A sequence of nibbles, with or without a terminator behind it. -/
structure Path where
  nibbles : List Nibble
  terminated : Bool
deriving DecidableEq, Repr

/-- Why a list of symbols is no path, or a byte string is no packed path. -/
inductive PathError where
  /-- A packed path has at least its flag byte. -/
  | empty
  /-- The leading nibble is none of the four flags. -/
  | invalidFlag (flag : Nibble)
  /-- The flag announces an even path, but the nibble beside it is in use. -/
  | nonZeroPadding (padding : Nibble)
  /-- A terminator stands where a nibble is needed. -/
  | misplacedTerminator (index : Nat)
  /-- A symbol is neither a nibble nor the terminator. -/
  | invalidNibble (index : Nat) (value : UInt8)
  /-- An odd number of nibbles does not make whole bytes. -/
  | oddLength (count : Nat)
deriving DecidableEq, Repr

namespace PathError

/-- The wording of a refusal. -/
def message : PathError → String
  | empty => "cannot unpack an empty byte string"
  | invalidFlag flag =>
    "invalid hex-prefix flag nibble: 0x" ++ String.singleton flag.digit
  | nonZeroPadding padding =>
    "non-zero padding nibble 0x" ++ String.singleton padding.digit
      ++ " after even-length flag"
  | misplacedTerminator index =>
    "terminator at index " ++ toString index ++ " is not the final nibble"
  | invalidNibble index value =>
    "nibble value " ++ toString value.toNat ++ " at index " ++ toString index
      ++ " is out of range"
  | oddLength count =>
    "odd nibble count " ++ toString count ++ " cannot be paired into bytes"

end PathError

namespace Path

/-- The symbol that closes a path which ends in a value. -/
def terminator : UInt8 := 16

/-- The symbol of a nibble. -/
def symbol (n : Nibble) : UInt8 := UInt8.ofNat n.val

/-- The symbols of a path. -/
def symbols (path : Path) : List UInt8 :=
  path.nibbles.map symbol ++ if path.terminated then [terminator] else []

/-- Reads symbols that must all be nibbles, counting indices from `index`. -/
def readNibbles (index : Nat) : List UInt8 → Except PathError (List Nibble)
  | [] => .ok []
  | value :: rest =>
    if value = terminator then .error (.misplacedTerminator index)
    else if h : value.toNat < 16 then (readNibbles (index + 1) rest).map (⟨value.toNat, h⟩ :: ·)
    else .error (.invalidNibble index value)

theorem toNat_symbol (n : Nibble) : (symbol n).toNat = n.val := by
  simp only [symbol, UInt8.toNat_ofNat']
  omega

theorem symbol_ne_terminator (n : Nibble) : symbol n ≠ terminator := by
  intro equal
  have := congrArg UInt8.toNat equal
  rw [toNat_symbol] at this
  exact absurd this (Nat.ne_of_lt n.isLt)

/-- Written nibbles are read back. -/
theorem readNibbles_symbols (index : Nat) (nibbles : List Nibble) :
    readNibbles index (nibbles.map symbol) = .ok nibbles := by
  induction nibbles generalizing index with
  | nil => rfl
  | cons n rest ih =>
    have small : (symbol n).toNat < 16 := by rw [toNat_symbol]; exact n.isLt
    rw [List.map_cons, readNibbles, if_neg (symbol_ne_terminator n), dif_pos small, ih]
    simp [Except.map, toNat_symbol]

/-- Reads the path that a list of symbols writes out. -/
def ofSymbols (symbols : List UInt8) : Except PathError Path :=
  if symbols.getLast? = some terminator then
    (readNibbles 0 symbols.dropLast).map (⟨·, true⟩)
  else
    (readNibbles 0 symbols).map (⟨·, false⟩)

/-- A path is read back from its symbols. -/
@[simp]
theorem ofSymbols_symbols (path : Path) : ofSymbols path.symbols = .ok path := by
  obtain ⟨nibbles, terminated⟩ := path
  cases terminated with
  | true =>
    simp [ofSymbols, symbols, readNibbles_symbols, Except.map]
  | false =>
    have unclosed : (nibbles.map symbol).getLast? ≠ some terminator := by
      intro closed
      obtain ⟨n, _, equal⟩ := List.mem_map.1 (List.mem_of_getLast? closed)
      exact symbol_ne_terminator n equal
    rw [symbols, if_neg Bool.false_ne_true, List.append_nil, ofSymbols, if_neg unclosed,
      readNibbles_symbols]
    rfl

/-- The path over the nibbles of a byte string. -/
def ofBytes (bytes : Bytes) (terminated : Bool) : Path :=
  ⟨Nibble.expand bytes, terminated⟩

/-- Joins symbols two by two into bytes.  All of them must be nibbles; an odd
number of symbols is reported first. -/
def bytesOfSymbols (symbols : List UInt8) : Except PathError Bytes :=
  if symbols.length % 2 = 1 then .error (.oddLength symbols.length)
  else (readNibbles 0 symbols).map Nibble.pair

end Path

end PathStore
