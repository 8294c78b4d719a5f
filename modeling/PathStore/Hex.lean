import PathStore.Failure
import PathStore.Text.Quoted
import PathStore.Text.Utf8

/-!
# Hexadecimal text of byte strings

Bytes are printed as two lower-case digits each.  Reading takes digits of
either case and any number of leading `0x` marks.  Lengths and positions count
the bytes of the text in UTF-8, with the marks removed, and a byte that is no
digit is named by the character with its number.
-/

namespace PathStore

/-- Why a text is not the hexadecimal form of a byte string. -/
inductive HexError where
  /-- The digits do not come in pairs. -/
  | oddLength
  /-- A byte of the text is no digit. -/
  | stray (stray : Nibble.Stray)
deriving DecidableEq, Repr

namespace HexError

/-- The wording of a refusal. -/
def message : HexError → String
  | oddLength => "Odd number of digits"
  | stray s => "Invalid character " ++ Text.quotedChar s.char ++ " at position "
      ++ toString s.position

end HexError

namespace Hex

/-- The digits of a byte string, two for each byte. -/
def digits (bytes : Bytes) : List Char :=
  (Nibble.expand bytes).map Nibble.digit

/-- The lower-case hexadecimal text of a byte string. -/
def encode (bytes : Bytes) : String :=
  String.ofList (digits bytes)

/-- The text after all of its leading `0x` marks. -/
def unmarked : List Char → List Char
  | '0' :: 'x' :: rest => unmarked rest
  | text => text

/-- Reads unmarked digits, given as the bytes of the text.  An odd number of
bytes is reported before any byte that is no digit. -/
def decodeBytes (text : Bytes) : Except HexError Bytes :=
  if text.length % 2 = 1 then .error .oddLength
  else
    match Nibble.readDigits 0 (text.map fun b => Char.ofNat b.toNat) with
    | .error s => .error (.stray s)
    | .ok nibbles => .ok (Nibble.pair nibbles)

/-- Reads the bytes that a text spells. -/
def decode (text : String) : Except HexError Bytes :=
  decodeBytes (Text.utf8 (unmarked text.toList))

end Hex

/-- A text that was to spell bytes and does not: what it was given for, the
text itself, and what is wrong with it. -/
structure OperandError where
  role : String
  text : String
  cause : HexError
deriving DecidableEq, Repr

namespace OperandError

/-- The failure behind a refusal: the operand first, then the cause. -/
def failure (e : OperandError) : Failure :=
  .because (e.role ++ " is not valid hex: " ++ Text.quoted e.text) (.plain e.cause.message)

end OperandError

/-- Reads the bytes that an operand spells, naming its role if it spells
none. -/
def Hex.operand (role text : String) : Except OperandError Bytes :=
  match Hex.decode text with
  | .ok bytes => .ok bytes
  | .error cause => .error ⟨role, text, cause⟩

end PathStore
