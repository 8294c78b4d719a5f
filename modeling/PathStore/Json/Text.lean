import PathStore.Json.Error
import PathStore.Text.Utf8

/-!
# JSON strings

A string is scanned into pieces: characters, and the 16-bit units of its
numeric escapes.  Units spell characters as surrogate pairs do, and a string
means something only if none of its surrogates stands alone.  A string that is
passed over need not mean anything, so scanning does not look at pairs; for a
string that breaks off, `strictFault` tells which is met first, an unpaired
surrogate or the fault that ends it.

`quote` writes a string with the fewest escapes.
-/

namespace PathStore.Json

/-- A part of a string: a character, or a unit that was escaped by number. -/
inductive Piece where
  | char (char : Char)
  | unit (unit : Nat)
deriving DecidableEq, Repr

/-- A scanned string: its pieces, and the rest of the text behind its closing
quote or the fault that ends it. -/
structure ScannedText where
  pieces : List Piece
  rest : Except Fault (List Char)

namespace ScannedText

/-- The scanned string with a piece in front. -/
def cons (piece : Piece) (scanned : ScannedText) : ScannedText :=
  { scanned with pieces := piece :: scanned.pieces }

end ScannedText

namespace Text

/-- The character that a letter behind a backslash stands for. -/
def shortEscape? (c : Char) : Option Char :=
  if c = '"' ∨ c = '\\' ∨ c = '/' then some c
  else if c = 'b' then some '\x08'
  else if c = 'f' then some '\x0c'
  else if c = 'n' then some '\n'
  else if c = 'r' then some '\r'
  else if c = 't' then some '\t'
  else none

/-- The unit that four hexadecimal digits spell. -/
def unit? (a b c d : Char) : Option Nat := do
  let a ← Nibble.ofDigit? a
  let b ← Nibble.ofDigit? b
  let c ← Nibble.ofDigit? c
  let d ← Nibble.ofDigit? d
  return ((a.val * 16 + b.val) * 16 + c.val) * 16 + d.val

/-- The fault of a numeric escape without four digits.  It is cut off if fewer
than four bytes are left. -/
def escapeFault (rest : List Char) : Fault :=
  if (Text.utf8 rest).length < 4 then .unexpectedEnd else .malformed

/-- Scans a string from behind its opening quote. -/
def scan : List Char → ScannedText
  | [] => ⟨[], .error .unexpectedEnd⟩
  | '"' :: rest => ⟨[], .ok rest⟩
  | '\\' :: 'u' :: a :: b :: c :: d :: rest =>
    match unit? a b c d with
    | some unit => (scan rest).cons (.unit unit)
    | none => ⟨[], .error .malformed⟩
  | '\\' :: 'u' :: rest => ⟨[], .error (escapeFault rest)⟩
  | '\\' :: c :: rest =>
    match shortEscape? c with
    | some char => (scan rest).cons (.char char)
    | none => ⟨[], .error .malformed⟩
  | ['\\'] => ⟨[], .error .unexpectedEnd⟩
  | c :: rest =>
    if c.toNat < 32 then ⟨[], .error .malformed⟩
    else (scan rest).cons (.char c)

/-- The unit is the first half of a pair. -/
def isLeading (unit : Nat) : Bool := 0xd800 ≤ unit && unit ≤ 0xdbff

/-- The unit is the second half of a pair. -/
def isTrailing (unit : Nat) : Bool := 0xdc00 ≤ unit && unit ≤ 0xdfff

/-- The character that a pair of units spells. -/
def pairedChar (leading trailing : Nat) : Char :=
  Char.ofNat ((leading - 0xd800) * 0x400 + (trailing - 0xdc00) + 0x10000)

/-- The characters of a string, if every surrogate is one of a pair. -/
def meaning? : List Piece → Option (List Char)
  | [] => some []
  | .char c :: rest => (meaning? rest).map (c :: ·)
  | .unit unit :: rest =>
    if isTrailing unit then none
    else if isLeading unit then
      match rest with
      | .unit next :: rest =>
        if isTrailing next then (meaning? rest).map (pairedChar unit next :: ·) else none
      | _ => none
    else (meaning? rest).map (Char.ofNat unit :: ·)

/-- The string that pieces spell. -/
def string? (pieces : List Piece) : Option String :=
  (meaning? pieces).map String.ofList

/-- The pieces without a leading surrogate at their end, which still waits for
its other half. -/
def settled : List Piece → List Piece
  | [] => []
  | [.unit unit] => if isLeading unit then [] else [.unit unit]
  | piece :: rest => piece :: settled rest

/-- The first fault of a string that breaks off behind `pieces` with `fault`,
if it has to mean something. -/
def strictFault (pieces : List Piece) (fault : Fault) : Fault :=
  if (meaning? (settled pieces)).isSome then fault else .malformed

/-- One character as it is written in a string. -/
def quoteChar (c : Char) : List Char :=
  if c = '"' ∨ c = '\\' then ['\\', c]
  else if c = '\x08' then ['\\', 'b']
  else if c = '\x0c' then ['\\', 'f']
  else if c = '\n' then ['\\', 'n']
  else if c = '\r' then ['\\', 'r']
  else if c = '\t' then ['\\', 't']
  else if c.toNat < 32 then
    let byte := UInt8.ofNat c.toNat
    ['\\', 'u', '0', '0', Nibble.digit (Nibble.high byte), Nibble.digit (Nibble.low byte)]
  else [c]

/-- A string as it is written. -/
def quote (s : String) : List Char :=
  '"' :: (s.toList.flatMap quoteChar ++ ['"'])

/-- A string is at least as long as its closing quote. -/
theorem scan_rest_length {text : List Char} {rest : List Char}
    (closed : (scan text).rest = .ok rest) : rest.length < text.length := by
  fun_induction scan text generalizing rest with
  | case1 => simp at closed
  | case2 => simp_all
  | case3 a b c d tail unit spelled ih =>
    have := ih closed
    simp only [List.length_cons]
    omega
  | case4 => simp at closed
  | case5 => simp at closed
  | case6 c tail _ _ char spelled ih =>
    have := ih closed
    simp only [List.length_cons]
    omega
  | case7 => simp at closed
  | case8 => simp at closed
  | case9 => simp at closed
  | case10 =>
    rename_i ih
    have := ih closed
    simp only [List.length_cons]
    omega

end Text

end PathStore.Json
