import SchemaProbe.Text.Printable

namespace SchemaProbe.Text

/-!
# Quoted text and quoted bytes

Messages and display forms show a text between quotes.  Apostrophes are the
quotes unless the text has an apostrophe and no double quote.  A backslash
and the chosen quote are escaped, as are the three usual control characters;
any other character that is not printable is written by its number in the
shortest of three widths.  Bytes are shown the same way with every byte above
126 by its number.
-/

/-- One lower-case hexadecimal digit. -/
def hexDigit (n : Nat) : Char :=
  if n < 10 then Char.ofNat (0x30 + n) else Char.ofNat (0x57 + n)

/-- The lowest `width` hexadecimal digits of a number. -/
def hexDigits : (width : Nat) → (n : Nat) → List Char
  | 0, _ => []
  | width + 1, n => hexDigits width (n / 16) ++ [hexDigit (n % 16)]

/-- The quote for a text: the double quote where that alone needs no escape. -/
def chooseQuote (text : List Char) : Char :=
  if text.contains '\'' && !text.contains '"' then '"' else '\''

/-- The escapes that texts and bytes share. -/
def sharedEscape?
    (quote c : Char) :
    Option (List Char) :=
  if c = quote ∨ c = '\\' then some ['\\', c]
  else if c = '\n' then some ['\\', 'n']
  else if c = '\r' then some ['\\', 'r']
  else if c = '\t' then some ['\\', 't']
  else none

/-- A character by its number. -/
def numbered (c : Char) : List Char :=
  if c.toNat < 0x100 then '\\' :: 'x' :: hexDigits 2 c.toNat
  else if c.toNat < 0x10000 then '\\' :: 'u' :: hexDigits 4 c.toNat
  else '\\' :: 'U' :: hexDigits 8 c.toNat

/-- One character of a quoted text. -/
def escapeChar
    (quote c : Char) :
    List Char :=
  match sharedEscape? quote c with
  | some escape => escape
  | none => if isPrintable c then [c] else numbered c

/-- A text between quotes. -/
def quoted (text : String) : String :=
  let quote := chooseQuote text.toList
  String.ofList (quote :: text.toList.flatMap (escapeChar quote) ++ [quote])

/-- One byte of a quoted byte string. -/
def escapeByte
    (quote : Char)
    (byte : UInt8) :
    List Char :=
  let c := Char.ofNat byte.toNat
  match sharedEscape? quote c with
  | some escape => escape
  | none =>
    if 0x20 ≤ byte.toNat ∧ byte.toNat ≤ 0x7E then [c]
    else '\\' :: 'x' :: hexDigits 2 byte.toNat

/-- A byte string between quotes, marked by the letter `b`. -/
def quotedBytes (bytes : List UInt8) : String :=
  let quote := chooseQuote (bytes.map fun byte => Char.ofNat byte.toNat)
  String.ofList ('b' :: quote :: bytes.flatMap (escapeByte quote) ++ [quote])

end SchemaProbe.Text
