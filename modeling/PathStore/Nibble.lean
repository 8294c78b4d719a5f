/-!
# Nibbles

A byte is two nibbles, the high one first.  `expand` writes bytes as nibbles
and `pair` joins nibbles two by two; `digit` and `ofDigit?` are the
hexadecimal digit of a nibble and its reading.
-/

namespace PathStore

/-- A string of bytes. -/
abbrev Bytes := List UInt8

/-- A value of four bits. -/
abbrev Nibble := Fin 16

namespace Nibble

/-- The upper four bits of a byte. -/
def high (b : UInt8) : Nibble :=
  ⟨b.toNat / 16, by have := b.toNat_lt; omega⟩

/-- The lower four bits of a byte. -/
def low (b : UInt8) : Nibble :=
  ⟨b.toNat % 16, Nat.mod_lt _ (by decide)⟩

/-- The byte with the given upper and lower four bits. -/
def byte (high low : Nibble) : UInt8 :=
  UInt8.ofNat (16 * high.val + low.val)

@[simp]
theorem high_byte (upper lower : Nibble) : high (byte upper lower) = upper := by
  apply Fin.ext
  simp only [high, byte, UInt8.toNat_ofNat']
  omega

@[simp]
theorem low_byte (upper lower : Nibble) : low (byte upper lower) = lower := by
  apply Fin.ext
  simp only [low, byte, UInt8.toNat_ofNat']
  omega

@[simp]
theorem byte_high_low (b : UInt8) : byte (high b) (low b) = b := by
  apply UInt8.toNat.inj
  have := b.toNat_lt
  simp only [byte, high, low, UInt8.toNat_ofNat']
  omega

/-- The nibbles of a byte string, two for each byte. -/
def expand (bytes : Bytes) : List Nibble :=
  bytes.flatMap fun b => [high b, low b]

/-- The bytes of a list of nibbles, two nibbles for each byte.  A nibble left
over at the end is dropped. -/
def pair : List Nibble → Bytes
  | first :: second :: rest => byte first second :: pair rest
  | _ => []

/-- Joining the nibbles of a byte string gives the byte string. -/
@[simp]
theorem pair_expand (bytes : Bytes) : pair (expand bytes) = bytes := by
  induction bytes with
  | nil => rfl
  | cons b rest ih =>
    rw [expand, List.flatMap_cons]
    exact congr (congrArg List.cons (byte_high_low b)) ih

/-- Nibbles that come in pairs are the nibbles of the bytes they make. -/
theorem expand_pair {nibbles : List Nibble} (even : nibbles.length % 2 = 0) :
    expand (pair nibbles) = nibbles := by
  fun_induction pair nibbles with
  | case1 first second rest ih =>
    rw [expand, List.flatMap_cons, high_byte, low_byte]
    exact congrArg (first :: second :: ·) (ih ((Nat.add_mod_right _ 2).symm.trans even))
  | case2 nibbles short =>
    match nibbles, short with
    | [], _ => rfl
    | [_], _ => contradiction
    | first :: second :: rest, short => exact absurd rfl (short first second rest)

/-- The lower-case hexadecimal digit of a nibble. -/
def digit (n : Nibble) : Char :=
  if n.val < 10 then Char.ofNat (48 + n.val) else Char.ofNat (87 + n.val)

/-- The nibble that a hexadecimal digit of either case stands for. -/
def ofDigit? (c : Char) : Option Nibble :=
  if h : 48 ≤ c.toNat ∧ c.toNat ≤ 57 then some ⟨c.toNat - 48, by omega⟩
  else if h : 97 ≤ c.toNat ∧ c.toNat ≤ 102 then some ⟨c.toNat - 87, by omega⟩
  else if h : 65 ≤ c.toNat ∧ c.toNat ≤ 70 then some ⟨c.toNat - 55, by omega⟩
  else none

/-- A digit stands for the nibble that it is the digit of. -/
@[simp]
theorem ofDigit?_digit (n : Nibble) : ofDigit? n.digit = some n := by
  revert n
  decide

/-- A character that is no digit, and its position in the text. -/
structure Stray where
  char : Char
  position : Nat
deriving DecidableEq, Repr

/-- Reads one nibble from each character, counting positions from `position`.
The first character that is no hexadecimal digit is reported. -/
def readDigits (position : Nat) : List Char → Except Stray (List Nibble)
  | [] => .ok []
  | c :: rest =>
    match ofDigit? c with
    | none => .error ⟨c, position⟩
    | some n => (readDigits (position + 1) rest).map (n :: ·)

/-- Digits are read back as the nibbles that they were written for. -/
theorem readDigits_digits (position : Nat) (nibbles : List Nibble) :
    readDigits position (nibbles.map digit) = .ok nibbles := by
  induction nibbles generalizing position with
  | nil => rfl
  | cons n rest ih =>
    rw [List.map_cons, readDigits, ofDigit?_digit, ih]
    rfl

end Nibble

end PathStore
