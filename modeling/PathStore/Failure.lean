/-!
# Failures

A failure is a reason and the causes behind it, from the outside in.  Printed,
the reason stands first and the causes below it, numbered if there are
several.
-/

namespace PathStore

/-- A reason with its causes. -/
structure Failure where
  reason : String
  causes : List String
deriving DecidableEq, Repr

namespace Failure

/-- A reason without a cause. -/
def plain (reason : String) : Failure := ⟨reason, []⟩

/-- A reason whose cause is another failure. -/
def because (reason : String) (cause : Failure) : Failure :=
  ⟨reason, cause.reason :: cause.causes⟩

/-- A cause with its number.  Its further lines stand under its first. -/
def numbered (index : Nat) (cause : String) : String :=
  let number := toString index
  "\n" ++ "".pushn ' ' (5 - number.length) ++ number ++ ": " ++ cause.replace "\n" "\n       "

/-- A failure as it is printed. -/
def text (failure : Failure) : String :=
  "Error: " ++ failure.reason ++
    match failure.causes with
    | [] => ""
    | [cause] => "\n\nCaused by:\n    " ++ cause.replace "\n" "\n    "
    | causes => "\n\nCaused by:" ++ String.join (causes.mapIdx numbered)

end Failure

end PathStore
