import PathStore.Json.Reader
import PathStore.Key

/-!
# Keys as JSON

A key is written as the list of its bytes in decimal, without blanks, and read
from any list of whole numbers below 256.
-/

namespace PathStore.Key

open Json

/-- The bytes of a key as they are written. -/
def toJson (key : Key) : String :=
  String.ofList ('[' ::
    (List.intercalate [','] (key.bytes.map fun b => Nat.toDigits 10 b.toNat) ++ [']']))

/-- Reads a key. -/
def read : Reader Key
  | [] => .error .unexpectedEnd
  | .openList :: rest => (mk <$> readList readByte (advances_readToken _)).run rest
  | token :: _ => .error (refusal "a sequence" token)

/-- Reads the key that a text holds. -/
def ofJson (text : String) : Except ReadError Key :=
  document read text.toList

end PathStore.Key
