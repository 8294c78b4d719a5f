import PathStore.Decimal.Shortest
import PathStore.Text.Quoted

/-!
# Refusals of JSON texts

A text is refused for one of two kinds of reason.  A fault is in the text
itself: it ends too early or is malformed.  A mismatch is a value that is well
written, but not what the reader was asked for; it names what stands there and
what was expected.
-/

namespace PathStore.Json

/-- What is wrong with a text that is not JSON. -/
inductive Fault where
  | unexpectedEnd
  | malformed
deriving DecidableEq, Repr

namespace Fault

/-- The wording of a fault. -/
def message : Fault → String
  | unexpectedEnd => "unexpected end"
  | malformed => "syntax error"

end Fault

/-- What kind of value stands in a text, with the value itself if it is a
scalar. -/
inductive Shape where
  | null
  | bool (value : Bool)
  | integer (value : Int)
  | real (negative : Bool) (magnitude : Decimal.Magnitude)
  | text (value : String)
  | list
  | record
deriving DecidableEq, Repr

namespace Shape

/-- Reals are printed in positional notation with up to 16 digits before the
point or four zeros behind it, and otherwise with a signed power of ten. -/
def realStyle : Decimal.Style := ⟨16, 4, true⟩

/-- The name of what stands in a text. -/
def describe : Shape → String
  | null => "null"
  | bool value => "boolean `" ++ toString value ++ "`"
  | integer value => "integer `" ++ toString value ++ "`"
  | real negative magnitude =>
    "floating point `" ++ (if negative then "-" else "")
      ++ String.ofList (magnitude.shortest.render realStyle) ++ "`"
  | text value => "string " ++ Text.quoted value
  | list => "sequence"
  | record => "map"

end Shape

/-- How a value differs from what was asked for. -/
inductive Mismatch where
  | wrongType (found : Shape) (expected : String)
  | wrongValue (found : Shape) (expected : String)
  | wrongLength (length : Nat) (expected : String)
  | missingField (name : String)
  | duplicateField (name : String)
  | unknownVariant (name : String) (expected : String)
deriving DecidableEq, Repr

namespace Mismatch

/-- The wording of a mismatch. -/
def message : Mismatch → String
  | wrongType found expected =>
    "invalid type: " ++ found.describe ++ ", expected " ++ expected
  | wrongValue found expected =>
    "invalid value: " ++ found.describe ++ ", expected " ++ expected
  | wrongLength length expected =>
    "invalid length " ++ toString length ++ ", expected " ++ expected
  | missingField name => "missing field `" ++ name ++ "`"
  | duplicateField name => "duplicate field `" ++ name ++ "`"
  | unknownVariant name expected =>
    "unknown variant `" ++ name ++ "`, expected " ++ expected

end Mismatch

/-- Why a text was not read. -/
inductive ReadError where
  | fault (cause : Fault)
  | mismatch (cause : Mismatch)
deriving DecidableEq, Repr

namespace ReadError

/-- The text ends too early. -/
abbrev unexpectedEnd : ReadError := fault .unexpectedEnd

/-- The text is malformed. -/
abbrev malformed : ReadError := fault .malformed

/-- The wording of a refusal. -/
def message : ReadError → String
  | fault cause => cause.message
  | mismatch cause => cause.message

end ReadError

end PathStore.Json
