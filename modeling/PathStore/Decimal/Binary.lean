/-!
# Binary floating-point magnitudes

A magnitude of 53 bits is a mantissa and a power of two.  `nearest` rounds a
quotient of natural numbers to such a magnitude, an exact tie to the even
mantissa, and has no answer beyond the largest one.  `ofDecimal` reads a
decimal significand with a power of ten: the significand and the power are
each rounded first, then their product or quotient.
-/

namespace PathStore.Decimal

/-- The number `mantissa * 2 ^ exponent`. -/
structure Magnitude where
  mantissa : Nat
  exponent : Int
deriving DecidableEq, Repr

namespace Magnitude

/-- Mantissas stay below this number. -/
def mantissaLimit : Nat := Nat.pow 2 53

/-- The smallest power of two that a mantissa is multiplied with. -/
def leastExponent : Int := -1074

/-- The largest power of two that a mantissa is multiplied with. -/
def greatestExponent : Int := 971

/-- The quotient `num / den` divided by a power of two, as a quotient again. -/
def scaled (num den : Nat) (power : Int) : Nat × Nat :=
  if 0 ≤ power then (num, den * Nat.pow 2 power.toNat) else (num * Nat.pow 2 (-power).toNat, den)

/-- The whole number closest to a quotient; of two equally close ones the even
one. -/
def roundEven (num den : Nat) : Nat :=
  let floor := num / den
  let rest := num % den
  if 2 * rest < den then floor
  else if den < 2 * rest then floor + 1
  else if floor % 2 = 0 then floor
  else floor + 1

/-- The power of two for which a quotient has a mantissa of 53 bits, or the
least power if the quotient is too small for that. -/
def exponentFor (num den : Nat) : Int :=
  let guess : Int := (num.log2 : Int) - (den.log2 : Int) - 53
  let (n, d) := scaled num den guess
  max (if n / d < mantissaLimit then guess else guess + 1) leastExponent

/-- The magnitude nearest to the quotient `num / den`, unless it is out of
range. -/
def nearest (num den : Nat) : Option Magnitude :=
  if num = 0 then some ⟨0, leastExponent⟩
  else
    let power := exponentFor num den
    let (n, d) := scaled num den power
    let mantissa := roundEven n d
    let rounded : Magnitude :=
      if mantissa = mantissaLimit then ⟨mantissaLimit / 2, power + 1⟩ else ⟨mantissa, power⟩
    if greatestExponent < rounded.exponent then none else some rounded

/-- The rounded product of two magnitudes. -/
def mul (a b : Magnitude) : Option Magnitude :=
  let (num, den) := scaled (a.mantissa * b.mantissa) 1 (-(a.exponent + b.exponent))
  nearest num den

/-- The rounded quotient of two magnitudes. -/
def div (a b : Magnitude) : Option Magnitude :=
  let (num, den) := scaled a.mantissa b.mantissa (b.exponent - a.exponent)
  nearest num den

/-- The largest power of ten that is a magnitude. -/
def greatestPower : Nat := 308

/-- Divides by a power of ten, in steps that are each in range. -/
def dividePower (magnitude : Magnitude) (power : Nat) : Option Magnitude :=
  if greatestPower < power then
    if magnitude.mantissa = 0 then some magnitude
    else do
      let step ← nearest (Nat.pow 10 greatestPower) 1
      let quotient ← magnitude.div step
      quotient.dividePower (power - greatestPower)
  else do
    let step ← nearest (Nat.pow 10 power) 1
    magnitude.div step
termination_by power
decreasing_by simp only [greatestPower] at *; omega

/-- Multiplies with a power of ten.  Beyond the largest power only zero is
still in range. -/
def multiplyPower (magnitude : Magnitude) (power : Nat) : Option Magnitude :=
  if greatestPower < power then
    if magnitude.mantissa = 0 then some magnitude else none
  else do
    let step ← nearest (Nat.pow 10 power) 1
    magnitude.mul step

/-- The magnitude that `significand * 10 ^ power` is read as. -/
def ofDecimal (significand : Nat) (power : Int) : Option Magnitude := do
  let magnitude ← nearest significand 1
  if 0 ≤ power then magnitude.multiplyPower power.toNat
  else magnitude.dividePower (-power).toNat

end Magnitude

end PathStore.Decimal
