import SchemaProbe.Number.Display

namespace SchemaProbe.Number

/-!
# Exact decimals

An exact decimal is `±coefficient · 10^exponent`, trailing zeros included: it
is written back with the digits it was read with.  Its value, like that of
every other finite number, is a fraction in lowest terms, and numbers of all
kinds are equal when these fractions are.
-/

/-- A decimal number with its digits. -/
structure ExactDecimal where
  negative : Bool
  coefficient : Nat
  exponent : Int
  deriving Repr, DecidableEq

/-- The decimal zero. -/
def ExactDecimal.zero : ExactDecimal :=
  ⟨false, 0, 0⟩

/-- The written form: positional unless the exponent is positive or more than
six zeros would follow the point. -/
def ExactDecimal.text (d : ExactDecimal) : String :=
  let digits := decimalDigits d.coefficient
  let leading : Int := d.exponent + digits.length
  let positional := decide (d.exponent ≤ 0 ∧ -6 < leading)
  let point : Int := if positional then leading else 1
  let body :=
    if point ≤ 0 then '0' :: '.' :: (List.replicate (-point).toNat '0' ++ digits)
    else if digits.length ≤ point.toNat then
      digits ++ List.replicate (point.toNat - digits.length) '0'
    else digits.take point.toNat ++ '.' :: digits.drop point.toNat
  let tail := if leading = point then []
    else
      let shift := leading - point
      'E' :: (if shift < 0 then '-' else '+') :: decimalDigits shift.natAbs
  String.ofList ((if d.negative then ['-'] else []) ++ body ++ tail)

/-- Reads a decimal number. -/
def ExactDecimal.ofText? (text : String) : Option ExactDecimal :=
  let (negative, unsigned) := takeSign text.toList
  let whole := unsigned.takeWhile Char.isDigit
  let afterWhole := unsigned.drop whole.length
  let (fraction, rest) := match afterWhole with
    | '.' :: tail => (tail.takeWhile Char.isDigit, tail.dropWhile Char.isDigit)
    | _ => ([], afterWhole)
  if whole.isEmpty && fraction.isEmpty then none
  else
    (readExponent? rest).map fun exponent =>
      ⟨negative, digitsValue (whole ++ fraction), exponent - fraction.length⟩

/-- A fraction in lowest terms with a positive denominator. -/
structure Ratio where
  numerator : Int
  denominator : Nat
  deriving Repr, DecidableEq

/-- A fraction in lowest terms. -/
def Ratio.reduced
    (numerator : Int)
    (denominator : Nat) :
    Ratio :=
  let divisor := Nat.gcd numerator.natAbs denominator
  ⟨numerator / (divisor : Int), denominator / divisor⟩

/-- A whole number as a fraction. -/
def Ratio.ofInt (n : Int) : Ratio :=
  ⟨n, 1⟩

/-- `n · base^exponent` as a fraction. -/
def Ratio.scaled
    (n : Int)
    (base : Nat)
    (exponent : Int) :
    Ratio :=
  if 0 ≤ exponent then ⟨n * (Nat.pow base exponent.toNat : Nat), 1⟩
  else reduced n (Nat.pow base (-exponent).toNat)

/-- The value of a finite double. -/
def Ratio.ofBinary? : Binary64 → Option Ratio
  | .finite negative mantissa exponent =>
    some (scaled (if negative then -(mantissa : Int) else mantissa) 2 exponent)
  | _ => none

/-- The value of an exact decimal. -/
def Ratio.ofDecimal (d : ExactDecimal) : Ratio :=
  scaled (if d.negative then -(d.coefficient : Int) else d.coefficient) 10 d.exponent

end SchemaProbe.Number
