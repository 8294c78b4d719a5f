/-!
# Numbers as decimal digits

A number is read from its decimal digits, the highest first.  A counting number
is digits alone: zeros and a plus sign may stand in front, and nothing else.
-/

namespace PathStore.Decimal

/-- The character is a decimal digit. -/
def isDigit (c : Char) : Bool := 48 ≤ c.toNat && c.toNat ≤ 57

/-- The value of a decimal digit. -/
def digitValue (c : Char) : Nat := c.toNat - 48

/-- The number that digits spell behind the digits of `start`. -/
def valueFrom (start : Nat) (digits : List Char) : Nat :=
  digits.foldl (fun value digit => 10 * value + digitValue digit) start

/-- The number of values of a 64-bit word. -/
def wordLimit : Nat := Nat.pow 2 64

/-- The characters behind a plus sign. -/
def withoutPlus : List Char → List Char
  | '+' :: rest => rest
  | text => text

/-- Reads a counting number that lies below a limit. -/
def count? (limit : Nat) (text : String) : Option Nat :=
  let digits := withoutPlus text.toList
  if digits ≠ [] ∧ digits.all isDigit ∧ valueFrom 0 digits < limit then
    some (valueFrom 0 digits)
  else none

end PathStore.Decimal
