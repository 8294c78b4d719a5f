import PathStore.Hex
import PathStore.Path.Basic

/-!
# Paths as text

An operator types a path as hexadecimal digits, one for each nibble, and reads
a list of symbols back as digits followed by one escape for each symbol.  In
the digits a terminator shows as `T` and a symbol above it as `?`; the escapes
keep every symbol apart.
-/

namespace PathStore

/-- A typed path holds a character that is no digit. -/
structure DigitError where
  stray : Nibble.Stray
deriving DecidableEq, Repr

namespace DigitError

/-- The wording of a refusal.  Positions count characters. -/
def message (e : DigitError) : String :=
  "invalid nibble " ++ Text.quotedChar e.stray.char ++ " at position "
    ++ toString e.stray.position

end DigitError

namespace Path

/-- Reads typed digits, one nibble for each character. -/
def readText (text : String) : Except DigitError (List Nibble) :=
  match Nibble.readDigits 0 text.toList with
  | .ok nibbles => .ok nibbles
  | .error stray => .error ⟨stray⟩

/-- The digit that stands for a symbol. -/
def symbolDigit (value : UInt8) : Char :=
  if h : value.toNat < 16 then Nibble.digit ⟨value.toNat, h⟩
  else if value = terminator then 'T'
  else '?'

/-- The escape of a symbol: its value in two hexadecimal digits. -/
def symbolEscape (value : UInt8) : List Char :=
  ['\\', 'x', Nibble.digit (Nibble.high value), Nibble.digit (Nibble.low value)]

/-- The escapes of a list of symbols. -/
def escapes (symbols : List UInt8) : String :=
  String.ofList (symbols.flatMap symbolEscape)

/-- The digits of a list of symbols, a blank, and the escapes. -/
def render (symbols : List UInt8) : String :=
  String.ofList (symbols.map symbolDigit) ++ " " ++ escapes symbols

end Path

end PathStore
