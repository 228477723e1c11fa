import IntentGate.Text.Blank
import IntentGate.Text.Digits
import IntentGate.Time.Calendar
import IntentGate.Time.Instant

/-!
# The text of an instant

Instants are written as RFC 3339 dates and times in universal time, with as many fraction digits as
needed in steps of three, and a signed year outside the years 0 to 9999. They are read from the
same form with any offset; blanks between the parts and a lower-case `t` or `z` are allowed.
-/

namespace IntentGate

namespace Instant

/-- Decimal digits, filled up with zeros on the left. -/
def padded (width n : Nat) : List Char :=
  let ds := Text.decimalDigits n
  List.replicate (width - ds.length) '0' ++ ds

/-- Four digits, or a sign and at least four digits outside the years 0 to 9999. -/
def yearChars (year : Int) : List Char :=
  if 0 ≤ year ∧ year ≤ 9999 then padded 4 year.toNat
  else (if year < 0 then '-' else '+') :: padded 4 year.natAbs

/-- The fraction of a second in 0, 3, 6 or 9 digits. -/
def fractionChars (nano : Nat) : List Char :=
  if nano = 0 then []
  else if nano % 1000000 = 0 then '.' :: padded 3 (nano / 1000000)
  else if nano % 1000 = 0 then '.' :: padded 6 (nano / 1000)
  else '.' :: padded 9 nano

/-- Date and time with `between` them and the zone at the end. A leap second is the second 60. -/
def charsWith (between zone : List Char) (t : Instant) : List Char :=
  let date := Date.ofDays (t.second / 86400)
  let ofDay := t.secondOfDay.toNat
  let leap := if t.inLeapSecond then 1 else 0
  yearChars date.year ++ '-' :: padded 2 date.month ++ '-' :: padded 2 date.day ++ between
    ++ padded 2 (ofDay / 3600) ++ ':' :: padded 2 (ofDay / 60 % 60)
    ++ ':' :: padded 2 (ofDay % 60 + leap) ++ fractionChars (t.nano % Span.perSecond) ++ zone

/-- The stored form, with the zone `Z`. -/
def document (t : Instant) : String :=
  String.ofList (t.charsWith ['T'] ['Z'])

/-- The form with a numeric offset. -/
def offsetText (t : Instant) : String :=
  String.ofList (t.charsWith ['T'] "+00:00".toList)

/-- The form for messages, with a space and the zone's name. -/
def plain (t : Instant) : String :=
  String.ofList (t.charsWith [' '] " UTC".toList)

/-! ## Reading -/

open Text (isDigit digitsValue)

/-- At least one digit and at most `width`, after blanks; the value and the rest. -/
def number? (width : Nat) (cs : List Char) : Option (Nat × List Char) :=
  let cs := Text.trimStartChars cs
  let ds := (cs.takeWhile isDigit).take width
  if ds.isEmpty then none else some (digitsValue ds, cs.drop ds.length)

/-- A year: up to four digits, or a sign and any number of digits. -/
def year? (cs : List Char) : Option (Int × List Char) :=
  let signed (sign : Int) (rest : List Char) : Option (Int × List Char) :=
    let ds := rest.takeWhile isDigit
    if ds.isEmpty then none else some (sign * digitsValue ds, rest.drop ds.length)
  match Text.trimStartChars cs with
  | '-' :: rest => signed (-1) rest
  | '+' :: rest => signed 1 rest
  | rest => (number? 4 rest).map fun (n, rest) => (n, rest)

/-- A given character, after blanks. -/
def mark? (c : Char) (cs : List Char) : Option (List Char) :=
  match Text.trimStartChars cs with
  | d :: rest => if d = c then some rest else none
  | [] => none

/-- The nanoseconds after a decimal point, nine digits of them; further digits are skipped. -/
def fraction? (cs : List Char) : Option (Nat × List Char) :=
  match cs with
  | '.' :: rest =>
    let ds := rest.takeWhile isDigit
    if ds.isEmpty then none
    else
      let kept := ds.take 9
      some (digitsValue kept * Nat.pow 10 (9 - kept.length), rest.drop ds.length)
  | _ => some (0, cs)

/-- Whether a character may separate the hours and minutes of an offset. -/
def isOffsetGap (c : Char) : Bool := c == ':' || Text.isBlank c

/-- The zone: `Z`, `UTC`, or a signed offset of two digits each for hours and minutes. -/
def zone? (cs : List Char) : Option (Int × List Char) :=
  let signed (sign : Int) (rest : List Char) : Option (Int × List Char) :=
    match rest with
    | h₁ :: h₂ :: rest =>
      match rest.dropWhile isOffsetGap with
      | m₁ :: m₂ :: rest =>
        if [h₁, h₂, m₁, m₂].all isDigit && m₁ < '6' then
          some (sign * (digitsValue [h₁, h₂] * 3600 + digitsValue [m₁, m₂] * 60), rest)
        else none
      | _ => none
    | _ => none
  match cs with
  | '+' :: rest => signed 1 rest
  | '-' :: rest => signed (-1) rest
  | '−' :: rest => signed (-1) rest
  | u :: t :: c :: rest =>
    if [u, t, c].map Char.toLower = ['u', 't', 'c'] then some (0, rest)
    else if u = 'Z' ∨ u = 'z' then some (0, t :: c :: rest)
    else none
  | z :: rest => if z = 'Z' ∨ z = 'z' then some (0, rest) else none
  | [] => none

/-- The instant of a date, a time of day and an offset in seconds, if they exist. The second 60
is the leap second after 59. -/
def ofCivil? (date : Date) (hour minute second nano : Nat) (offset : Int) : Option Instant :=
  if date.isValid && -262143 ≤ date.year && date.year ≤ 262142 && hour < 24 && minute < 60
      && second ≤ 60 && -86400 < offset && offset < 86400 then
    let (second, nano) := if second = 60 then (59, nano + Span.perSecond) else (second, nano)
    ofParts? (date.toDays * 86400 + hour * 3600 + minute * 60 + second - offset) nano
  else none

/-- Reads an instant with its zone. -/
def ofText? (s : String) : Option Instant := do
  let (year, cs) ← year? s.toList
  let cs ← mark? '-' cs
  let (month, cs) ← number? 2 cs
  let cs ← mark? '-' cs
  let (day, cs) ← number? 2 cs
  let cs ←
    match cs with
    | c :: rest => if c = 'T' ∨ c = 't' ∨ c = ' ' then some rest else none
    | [] => none
  let (hour, cs) ← number? 2 cs
  let cs ← mark? ':' cs
  let (minute, cs) ← number? 2 cs
  let cs ← mark? ':' cs
  let (second, cs) ← number? 2 cs
  let (nano, cs) ← fraction? cs
  let (offset, cs) ← zone? (Text.trimStartChars cs)
  if (Text.trimStartChars cs).isEmpty then
    ofCivil? ⟨year, month, day⟩ hour minute second nano offset
  else none

end Instant

end IntentGate
