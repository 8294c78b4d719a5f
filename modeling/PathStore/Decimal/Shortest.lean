import PathStore.Decimal.Binary

/-!
# Shortest decimals

A magnitude is printed with the fewest decimal digits that lie nearer to it
than to any other magnitude.  For each number of digits the two neighbours of
the magnitude on the decimal grid are tried; the first grid with a hit wins,
of two hits the nearer one, and of two equally near ones the even one.
-/

namespace PathStore.Decimal

/-- Digits that are multiplied with a power of ten. -/
structure Digits where
  digits : List Char
  power : Int
deriving DecidableEq, Repr

/-- The quotients that read back as a magnitude, in units of a common
denominator. -/
structure Interval where
  low : Nat
  value : Nat
  high : Nat
  denominator : Nat
  /-- The ends belong to the interval. -/
  closed : Bool

namespace Magnitude

/-- What reads back as a magnitude: up to half of the way to each neighbour,
the ends included if the mantissa is even. -/
def interval (magnitude : Magnitude) : Interval :=
  let m := magnitude.mantissa
  let lower :=
    if 2 * m = mantissaLimit ∧ leastExponent < magnitude.exponent then 4 * m - 1 else 4 * m - 2
  let (factor, denominator) := scaled 1 1 (2 - magnitude.exponent)
  ⟨lower * factor, 4 * m * factor, (4 * m + 2) * factor, denominator, m % 2 = 0⟩

end Magnitude

namespace Interval

/-- A point of the decimal grid, as a quotient. -/
def gridPoint (count : Nat) (power : Int) : Nat × Nat :=
  if 0 ≤ power then (count * Nat.pow 10 power.toNat, 1) else (count, Nat.pow 10 (-power).toNat)

/-- The grid point lies in the interval. -/
def holds (i : Interval) (count : Nat) (power : Int) : Bool :=
  let (num, den) := gridPoint count power
  if i.closed then i.low * den ≤ num * i.denominator && num * i.denominator ≤ i.high * den
  else i.low * den < num * i.denominator && num * i.denominator < i.high * den

/-- How far a grid point is from the value, in units that all points of one
grid share. -/
def distance (i : Interval) (count : Nat) (power : Int) : Nat :=
  let (num, den) := gridPoint count power
  max (num * i.denominator) (i.value * den) - min (num * i.denominator) (i.value * den)

/-- The number of grid steps below the value. -/
def stepsBelow (i : Interval) (power : Int) : Nat :=
  let (num, den) := gridPoint 1 power
  i.value * den / (i.denominator * num)

/-- The least power of ten above the value. -/
def magnitudePower (i : Interval) : Int :=
  if i.denominator ≤ i.value then (Nat.toDigits 10 (i.value / i.denominator)).length
  else 1 - ((Nat.toDigits 10 ((i.denominator - 1) / i.value)).length : Int)

/-- The grid point to print on the grid with `count` digits, if one reads
back. -/
def hit? (i : Interval) (count : Nat) : Option (Nat × Int) :=
  let power := i.magnitudePower - count
  let below := i.stepsBelow power
  let above := below + 1
  match i.holds below power, i.holds above power with
  | false, false => none
  | true, false => some (below, power)
  | false, true => some (above, power)
  | true, true =>
    let down := i.distance below power
    let up := i.distance above power
    if down < up ∨ (down = up ∧ below % 2 = 0) then some (below, power)
    else some (above, power)

/-- The most digits that are tried.  They tell any two magnitudes apart, so one
of the grids has a hit. -/
def mostDigits : Nat := 17

/-- The digits to print, without zeros behind them. -/
def digits (i : Interval) : Digits :=
  match (List.range' 1 mostDigits).findSome? i.hit? with
  | none => ⟨['0'], 0⟩
  | some (count, power) =>
    let all := Nat.toDigits 10 count
    let kept := (all.reverse.dropWhile (· = '0')).reverse
    ⟨kept, power + (all.length - kept.length : Nat)⟩

end Interval

/-- The digits that a magnitude is printed with. -/
def Magnitude.shortest (magnitude : Magnitude) : Digits :=
  if magnitude.mantissa = 0 then ⟨['0'], 0⟩ else magnitude.interval.digits

/-- How digits are laid out: positional notation as long as the point is not
further from the first digit than the limits allow, with at least one decimal,
and one digit before the point with a power of ten otherwise. -/
structure Style where
  /-- The most digits before the point in positional notation. -/
  longestWhole : Int
  /-- The most zeros between the point and the first digit. -/
  longestZeros : Int
  /-- A power that is not negative is written with a plus sign. -/
  plusSign : Bool

/-- The mark of a power of ten and the power. -/
def Style.exponent (style : Style) (power : Int) : List Char :=
  'e' :: ((if style.plusSign && decide (0 ≤ power) then ['+'] else []) ++ (toString power).toList)

/-- Digits laid out in a style. -/
def Digits.render (style : Style) (d : Digits) : List Char :=
  let point : Int := d.digits.length + d.power
  if 0 ≤ d.power ∧ point ≤ style.longestWhole then
    d.digits ++ List.replicate d.power.toNat '0' ++ ['.', '0']
  else if 0 < point ∧ point ≤ style.longestWhole then
    d.digits.take point.toNat ++ '.' :: d.digits.drop point.toNat
  else if -style.longestZeros ≤ point ∧ point ≤ 0 then
    '0' :: '.' :: (List.replicate (-point).toNat '0' ++ d.digits)
  else
    let power := style.exponent (point - 1)
    match d.digits with
    | [single] => single :: power
    | first :: rest => first :: '.' :: (rest ++ power)
    | [] => power

end PathStore.Decimal
