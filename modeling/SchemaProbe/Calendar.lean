namespace SchemaProbe

/-!
# Dates and moments

A date is three numbers; a moment adds the time of day, down to the
microsecond, and possibly an offset from universal time.  Both are written in
the extended ISO form.
-/

/-- A number in decimal with zeros in front up to a width. -/
def padded
    (width n : Nat) :
    String :=
  let digits := toString n
  String.ofList (List.replicate (width - digits.length) '0') ++ digits

/-- A day of the calendar. -/
structure CalendarDate where
  year : Nat
  month : Nat
  day : Nat
  deriving Repr, DecidableEq

/-- The ISO form of a date. -/
def CalendarDate.isoText (d : CalendarDate) : String :=
  padded 4 d.year ++ "-" ++ padded 2 d.month ++ "-" ++ padded 2 d.day

/-- The display form of a date. -/
def CalendarDate.display (d : CalendarDate) : String :=
  "datetime.date(" ++ String.intercalate ", " ([d.year, d.month, d.day].map toString) ++ ")"

/-- A day with a time of day and possibly an offset in seconds. -/
structure Moment where
  date : CalendarDate
  hour : Nat
  minute : Nat
  second : Nat
  microsecond : Nat
  offset : Option Int
  deriving Repr, DecidableEq

namespace Moment

/-- The start of 1970 in universal time. -/
def epoch : Moment :=
  ⟨⟨1970, 1, 1⟩, 0, 0, 0, 0, some 0⟩

/-- An offset with its sign, hours and minutes. -/
def offsetText (seconds : Int) : String :=
  let minutes := seconds.natAbs / 60
  (if seconds < 0 then "-" else "+")
    ++ padded 2 (minutes / 60) ++ ":" ++ padded 2 (minutes % 60)

/-- A moment with `separator` between the date and the time of day. -/
def textWith
    (separator : String)
    (m : Moment) :
    String :=
  m.date.isoText ++ separator
    ++ String.intercalate ":" ([m.hour, m.minute, m.second].map (padded 2))
    ++ (if m.microsecond = 0 then "" else "." ++ padded 6 m.microsecond)
    ++ (m.offset.map offsetText).getD ""

/-- The ISO form of a moment. -/
def isoText (m : Moment) : String :=
  m.textWith "T"

/-- A moment with a space between the date and the time of day. -/
def spacedText (m : Moment) : String :=
  m.textWith " "

/-- The display form of a moment: trailing zero parts are left out. -/
def display (m : Moment) : String :=
  let tail := if m.microsecond ≠ 0 then [m.second, m.microsecond]
    else if m.second ≠ 0 then [m.second] else []
  let parts := [m.date.year, m.date.month, m.date.day, m.hour, m.minute] ++ tail
  let zone := match m.offset with
    | none => []
    | some 0 => ["tzinfo=datetime.timezone.utc"]
    | some seconds =>
      ["tzinfo=datetime.timezone(datetime.timedelta(seconds=" ++ toString seconds ++ "))"]
  "datetime.datetime(" ++ String.intercalate ", " (parts.map toString ++ zone) ++ ")"

end Moment

/-- The number that a text of digits writes. -/
def digitsNumber? (digits : List Char) : Option Nat :=
  if digits.isEmpty || !digits.all Char.isDigit then none
  else some (digits.foldl (fun n c => 10 * n + (c.toNat - 0x30)) 0)

/-- The numbers between separators. -/
def numbersBetween?
    (separator : Char)
    (text : String) :
    Option (List Nat) :=
  ((text.splitOn separator.toString).map String.toList).mapM digitsNumber?

/-- Reads the ISO form of a date. -/
def CalendarDate.ofText? (text : String) : Option CalendarDate :=
  match numbersBetween? '-' text with
  | some [year, month, day] => some ⟨year, month, day⟩
  | _ => none

/-- Reads an offset after its sign. -/
def Moment.offsetOf?
    (sign : Int)
    (text : String) :
    Option Int :=
  match numbersBetween? ':' text with
  | some [hours, minutes] => some (sign * (hours * 3600 + minutes * 60))
  | _ => none

/-- Splits a time of day from the offset behind it. -/
def Moment.splitOffset? (text : String) : Option (String × Option Int) :=
  if text.endsWith "Z" then some ((text.dropEnd 1).toString, some 0)
  else
    match text.splitOn "+", text.splitOn "-" with
    | [time, zone], _ => (offsetOf? 1 zone).map fun seconds => (time, some seconds)
    | _, [time, zone] => (offsetOf? (-1) zone).map fun seconds => (time, some seconds)
    | _, _ => some (text, none)

/-- Reads a time of day: hours and minutes, possibly seconds, possibly a
fraction of a second. -/
def Moment.timeOf? (text : String) : Option (Nat × Nat × Nat × Nat) :=
  match text.splitOn "." with
  | [clock] =>
    match numbersBetween? ':' clock with
    | some [hour, minute] => some (hour, minute, 0, 0)
    | some [hour, minute, second] => some (hour, minute, second, 0)
    | _ => none
  | [clock, fraction] =>
    match numbersBetween? ':' clock,
        digitsNumber? ((fraction.toList ++ List.replicate 6 '0').take 6) with
    | some [hour, minute, second], some micro => some (hour, minute, second, micro)
    | _, _ => none
  | _ => none

/-- Reads the ISO form of a moment; a date alone is its midnight. -/
def Moment.ofText? (text : String) : Option Moment :=
  match text.splitOn "T" with
  | [date] => (CalendarDate.ofText? date).map fun day => ⟨day, 0, 0, 0, 0, none⟩
  | [date, rest] =>
    match CalendarDate.ofText? date, splitOffset? rest with
    | some day, some (time, offset) =>
      (timeOf? time).map fun (hour, minute, second, micro) =>
        ⟨day, hour, minute, second, micro, offset⟩
    | _, _ => none
  | _ => none

end SchemaProbe
