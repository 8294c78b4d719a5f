import PathStore.Path.Basic

/-!
# Packed paths

The packed form of a path is a byte string whose leading nibble is a flag: its
second bit says that the path is terminated and its lowest bit that the number
of nibbles is odd.  An odd path keeps its first nibble beside the flag, an
even one keeps zero there, and every further byte holds two nibbles.  Only
this form is accepted when a byte string is unpacked, so no path has two
packed forms.
-/

namespace PathStore.Path

/-- The flag of a path, from its terminator and the parity of its length. -/
def flag (terminated odd : Bool) : Nibble :=
  match terminated, odd with
  | false, false => 0
  | false, true => 1
  | true, false => 2
  | true, true => 3

/-- The packed form of a path. -/
def pack (path : Path) : Bytes :=
  match path.nibbles, path.nibbles.length % 2 with
  | first :: rest, 1 => Nibble.byte (flag path.terminated true) first :: Nibble.pair rest
  | nibbles, _ => Nibble.byte (flag path.terminated false) 0 :: Nibble.pair nibbles

/-- What a flag says of its path: whether it is terminated and whether its
length is odd. -/
def ofFlag? (flag : Nibble) : Option (Bool × Bool) :=
  match flag with
  | 0 => some (false, false)
  | 1 => some (false, true)
  | 2 => some (true, false)
  | 3 => some (true, true)
  | _ => none

/-- Reads a packed path.  The flag is judged before the nibble beside it. -/
def unpack : Bytes → Except PathError Path
  | [] => .error .empty
  | head :: rest =>
    match ofFlag? (Nibble.high head) with
    | none => .error (.invalidFlag (Nibble.high head))
    | some (terminated, true) =>
      .ok ⟨Nibble.low head :: Nibble.expand rest, terminated⟩
    | some (terminated, false) =>
      if Nibble.low head = 0 then .ok ⟨Nibble.expand rest, terminated⟩
      else .error (.nonZeroPadding (Nibble.low head))

@[simp]
theorem ofFlag?_flag (terminated odd : Bool) :
    ofFlag? (flag terminated odd) = some (terminated, odd) := by
  cases terminated <;> cases odd <;> rfl

/-- A path is read back from its packed form. -/
@[simp]
theorem unpack_pack (path : Path) : unpack path.pack = .ok path := by
  obtain ⟨nibbles, terminated⟩ := path
  simp only [pack]
  split
  · rename_i first rest odd
    have even : rest.length % 2 = 0 := by
      rw [List.length_cons] at odd
      omega
    simp [unpack, Nibble.expand_pair even]
  · rename_i nibbles _ _ notOdd
    have even : nibbles.length % 2 = 0 := by
      cases nibbles with
      | nil => rfl
      | cons first rest => exact Nat.mod_two_ne_one.1 (notOdd first rest rfl)
    simp [unpack, Nibble.expand_pair even]

/-- The packed form of the path that a list of symbols writes out. -/
def packSymbols (symbols : List UInt8) : Except PathError Bytes :=
  (ofSymbols symbols).map pack

/-- The symbols of the path that a byte string packs. -/
def unpackSymbols (packed : Bytes) : Except PathError (List UInt8) :=
  (unpack packed).map symbols

end PathStore.Path
