import SchemaProbe.Number.Shortest

namespace SchemaProbe.Number

/-!
# Written numbers

Doubles are written with the fewest digits that read back, in positional form
where the leading digit stands between the fourth place after the point and
the sixteenth before it, and with an exponent elsewhere.  Reading accepts the
usual decimal spellings and rounds to the nearest double.
-/

/-- How a double is laid out. -/
structure FloatLayout where
  leastPositional : Int
  mostPositional : Int
  exponentDigits : Nat
  infinity : String
  notANumber : String

/-- Positional from `0.0001` up to sixteen digits before the point; exponents
have a sign and at least two digits. -/
def floatLayout : FloatLayout where
  leastPositional := -4
  mostPositional := 15
  exponentDigits := 2
  infinity := "inf"
  notANumber := "nan"

/-- A number in decimal digits. -/
def decimalDigits (n : Nat) : List Char :=
  (Nat.toDigits 10 n)

/-- Digits without the zeros at their end, but at least one digit. -/
def trimZeros (digits : List Char) : List Char :=
  let kept := (digits.reverse.dropWhile (· == '0')).reverse
  if kept.isEmpty then ['0'] else kept

/-- An exponent with its sign. -/
def exponentText
    (layout : FloatLayout)
    (exponent : Int) :
    List Char :=
  let digits := decimalDigits exponent.natAbs
  (if exponent < 0 then '-' else '+')
    :: (List.replicate (layout.exponentDigits - digits.length) '0' ++ digits)

/-- A positive decimal in the given layout. -/
def FloatLayout.positive
    (layout : FloatLayout)
    (d : ShortDecimal) :
    List Char :=
  let digits := trimZeros (decimalDigits d.digits)
  let leading := d.point - 1
  if layout.leastPositional ≤ leading ∧ leading ≤ layout.mostPositional then
    if d.point ≤ 0 then
      '0' :: '.' :: (List.replicate (-d.point).toNat '0' ++ digits)
    else
      let whole := d.point.toNat
      let padded := digits ++ List.replicate (whole - digits.length) '0'
      let fraction := padded.drop whole
      padded.take whole ++ '.' :: (if fraction.isEmpty then ['0'] else fraction)
  else
    match digits with
    | [] => []
    | first :: rest =>
      first :: (if rest.isEmpty then [] else '.' :: rest)
        ++ 'e' :: exponentText layout leading

/-- A double as text. -/
def FloatLayout.write
    (layout : FloatLayout)
    (x : Float) :
    String :=
  match Binary64.ofFloat x with
  | .notANumber => layout.notANumber
  | .infinite negative => (if negative then "-" else "") ++ layout.infinity
  | .finite negative mantissa exponent =>
    let body := if mantissa = 0 then ['0', '.', '0']
      else layout.positive (shortest mantissa exponent)
    String.ofList (if negative then '-' :: body else body)

/-- The written form of a double. -/
def floatText (x : Float) : String :=
  floatLayout.write x

/-- The value of a run of decimal digits. -/
def digitsValue (digits : List Char) : Nat :=
  digits.foldl (fun n c => 10 * n + (c.toNat - 0x30)) 0

/-- An optional sign and what follows it. -/
def takeSign : List Char → Bool × List Char
  | '-' :: rest => (true, rest)
  | '+' :: rest => (false, rest)
  | rest => (false, rest)

/-- Reads an exponent part, which may be missing. -/
def readExponent? : List Char → Option Int
  | [] => some 0
  | mark :: rest =>
    if mark = 'e' ∨ mark = 'E' then
      let (negative, digits) := takeSign rest
      if digits.isEmpty ∨ !digits.all Char.isDigit then none
      else some (if negative then -(digitsValue digits : Int) else digitsValue digits)
    else none

/-- Reads an unsigned decimal. -/
def readUnsigned? (text : List Char) : Option Float :=
  let whole := text.takeWhile Char.isDigit
  let afterWhole := text.drop whole.length
  let (fraction, rest) := match afterWhole with
    | '.' :: tail => (tail.takeWhile Char.isDigit, tail.dropWhile Char.isDigit)
    | _ => ([], afterWhole)
  if whole.isEmpty && fraction.isEmpty then none
  else
    match readExponent? rest with
    | none => none
    | some exponent =>
      let shift : Int := exponent - fraction.length
      some (Float.ofScientific (digitsValue (whole ++ fraction))
        (decide (shift < 0)) shift.natAbs)

/-- Reads a double from its written form. -/
def readFloat? (text : String) : Option Float :=
  let (negative, rest) := takeSign text.toList
  let word := String.ofList (rest.map Char.toLower)
  let magnitude :=
    if word = "inf" ∨ word = "infinity" then some (1.0 / 0.0)
    else if word = "nan" then some (0.0 / 0.0)
    else readUnsigned? rest
  magnitude.map fun x => if negative then -x else x

end SchemaProbe.Number
