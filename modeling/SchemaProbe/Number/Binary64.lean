namespace SchemaProbe.Number

/-!
# Double precision numbers as exact values

A finite double is `±m · 2^q` for whole numbers `m` and `q`.  Reading it off
the bit pattern makes comparison with whole numbers, and the search for a
short decimal, exact arithmetic on `Nat` and `Int`.
-/

/-- The exact value of a double, or what it is when it has none. -/
inductive Binary64
  | finite (negative : Bool) (mantissa : Nat) (exponent : Int)
  | infinite (negative : Bool)
  | notANumber
  deriving Repr, DecidableEq

/-- Reads a 64-bit pattern: one sign bit, eleven exponent bits and fifty-two
fraction bits. -/
def Binary64.ofBits (bits : Nat) : Binary64 :=
  let negative := bits / Nat.pow 2 63 % 2 == 1
  let biased : Nat := bits / Nat.pow 2 52 % Nat.pow 2 11
  let fraction : Nat := bits % Nat.pow 2 52
  if biased = 0 then .finite negative fraction (-1074)
  else if biased = 2047 then
    if fraction = 0 then .infinite negative else .notANumber
  else .finite negative (fraction + Nat.pow 2 52) ((biased : Int) - 1075)

/-- The exact value of a double. -/
def Binary64.ofFloat (x : Float) : Binary64 :=
  ofBits x.toBits.toNat

/-- The whole number that a double equals, if it equals one. -/
def Binary64.wholeNumber? : Binary64 → Option Int
  | .finite negative mantissa exponent =>
    let signed (n : Nat) : Int := if negative then -n else n
    if 0 ≤ exponent then some (signed (mantissa * Nat.pow 2 exponent.toNat))
    else
      let divisor := Nat.pow 2 (-exponent).toNat
      if mantissa % divisor = 0 then some (signed (mantissa / divisor)) else none
  | _ => none

end SchemaProbe.Number
