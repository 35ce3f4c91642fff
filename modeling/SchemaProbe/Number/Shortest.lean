import SchemaProbe.Number.Binary64

namespace SchemaProbe.Number

/-!
# The shortest decimal of a double

A decimal reads back as a double exactly when it lies in the interval of
reals that round to that double; the ends belong to it when the mantissa is
even.  If a decimal grid has a point in the interval, then one of the value's
two neighbours on that grid is such a point, so the search tries grids from
the coarsest on and looks at two points of each.
-/

/-- A positive decimal `0.d₁d₂… · 10^point` by its digits as one number. -/
structure ShortDecimal where
  digits : Nat
  count : Nat
  point : Int
  deriving Repr, DecidableEq

/-- A positive fraction. -/
structure Fraction where
  numerator : Nat
  denominator : Nat

/-- A fraction multiplied by a power of two. -/
def Fraction.timesTwoPow
    (n : Nat)
    (exponent : Int) :
    Fraction :=
  if 0 ≤ exponent then ⟨n * Nat.pow 2 exponent.toNat, 1⟩
  else ⟨n, Nat.pow 2 (-exponent).toNat⟩

/-- The number of decimal digits of a positive number, within `fuel` steps. -/
def digitCount : (fuel : Nat) → Nat → Nat
  | 0, _ => 0
  | fuel + 1, n => if n < 10 then 1 else digitCount fuel (n / 10) + 1

/-- The least `j` from `j` on with `1 ≤ value · 10^j`, within `fuel` steps. -/
def leadingZeros
    (value : Fraction) :
    (fuel : Nat) → Nat → Nat
  | 0, j => j
  | fuel + 1, j =>
    if value.denominator ≤ value.numerator * Nat.pow 10 j then j
    else leadingZeros value fuel (j + 1)

/-- The place of the decimal point: the `k` with
`10^(k-1) ≤ value < 10^k`. -/
def decimalPoint (value : Fraction) : Int :=
  if value.denominator ≤ value.numerator then
    digitCount 400 (value.numerator / value.denominator)
  else 1 - (leadingZeros value 400 1 : Int)

/-- The interval of reals that round to `mantissa · 2^exponent`, in quarters
of the last place. -/
structure RoundingInterval where
  value : Nat
  low : Nat
  high : Nat
  closed : Bool

/-- The interval around a positive finite double.  Below a power of two the
neighbour is only half as far away. -/
def RoundingInterval.around
    (mantissa : Nat)
    (exponent : Int) :
    RoundingInterval :=
  let narrow := mantissa == Nat.pow 2 52 && decide (-1074 < exponent)
  { value := 4 * mantissa
    low := 4 * mantissa - (if narrow then 1 else 2)
    high := 4 * mantissa + 2
    closed := mantissa % 2 == 0 }

/-- Whether `candidate` lies in the interval, all three on one scale. -/
def RoundingInterval.holds
    (interval : RoundingInterval)
    (scale : Nat)
    (candidate : Nat) :
    Bool :=
  if interval.closed then
    decide (interval.low * scale ≤ candidate ∧ candidate ≤ interval.high * scale)
  else
    decide (interval.low * scale < candidate ∧ candidate < interval.high * scale)

/-- The point of the grid with `count` digits that reads back, the nearer one
if both neighbours do and the even one if they are equally near. -/
def onGrid?
    (interval : RoundingInterval)
    (exponent point : Int)
    (count : Nat) :
    Option Nat :=
  let unit : Int := point - count
  let twoDown : Nat := (2 - exponent).toNat
  let twoUp : Nat := (exponent - 2).toNat
  let tenDown : Nat := (-unit).toNat
  let tenUp : Nat := unit.toNat
  let scale := Nat.pow 2 twoUp * Nat.pow 10 tenDown
  let step := Nat.pow 2 twoDown * Nat.pow 10 tenUp
  let below := interval.value * scale / step
  let fits (n : Nat) : Bool := interval.holds scale (n * step)
  match fits below, fits (below + 1) with
  | true, true =>
    let down := interval.value * scale - below * step
    let up := (below + 1) * step - interval.value * scale
    if down < up ∨ (down = up ∧ below % 2 = 0) then some below
    else some (below + 1)
  | true, false => some below
  | false, true => some (below + 1)
  | false, false => none

/-- The first grid from `count` digits on that has a point which reads back. -/
def searchGrids
    (interval : RoundingInterval)
    (exponent point : Int) :
    (fuel count : Nat) → ShortDecimal
  | 0, count => ⟨0, count, point⟩
  | fuel + 1, count =>
    match onGrid? interval exponent point count with
    | some digits => ⟨digits, count, point⟩
    | none => searchGrids interval exponent point fuel (count + 1)

/-- A point that was rounded up to a power of ten has one digit more. -/
def ShortDecimal.normal (d : ShortDecimal) : ShortDecimal :=
  if d.digits = Nat.pow 10 d.count then ⟨Nat.pow 10 (d.count - 1), d.count, d.point + 1⟩
  else d

/-- The shortest decimal that reads back as `mantissa · 2^exponent`, for a
positive mantissa.  Seventeen digits always suffice. -/
def shortest
    (mantissa : Nat)
    (exponent : Int) :
    ShortDecimal :=
  let point := decimalPoint (Fraction.timesTwoPow mantissa exponent)
  (searchGrids (.around mantissa exponent) exponent point 17 1).normal

end SchemaProbe.Number
