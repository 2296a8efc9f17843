import BootEngine.Number.Machine
import BootEngine.Text.Blank
import BootEngine.Text.Digits
import BootEngine.Time.Span

/-!
# Moments

Dates with times of day, read from their usual written form with an offset from universal time, and
written in universal time.

Contents:
* `daysBefore`, `Civil.ofDay`: dates of the calendar as numbers of days.
* `Moment`: a moment, `Moment.render`.
* `Moment.read`: the reader, and the ways in which it fails.
-/

namespace BootEngine.Time

/-- The number of days from the first of March of year zero to a date. Years are counted from March,
    so that the leap day is the last day of a year. -/
def daysBefore (year : Int) (month day : Nat) : Int :=
  let y := if month ≤ 2 then year - 1 else year
  let m := (month + 9) % 12
  365 * y + y.fdiv 4 - y.fdiv 100 + y.fdiv 400 + ((153 * m + 2) / 5 + (day - 1) : Nat)

/-- A date of the calendar. -/
structure Civil where
  year : Int
  month : Nat
  day : Nat
  deriving DecidableEq, Repr, Inhabited

/-- The date with a number of days. -/
def Civil.ofDay (number : Int) : Civil :=
  let era := number.fdiv 146097
  let dayOfEra := (number - era * 146097).toNat
  let yearOfEra := (dayOfEra - dayOfEra / 1460 + dayOfEra / 36524 - dayOfEra / 146096) / 365
  let dayOfYear := dayOfEra - (365 * yearOfEra + yearOfEra / 4 - yearOfEra / 100)
  let m := (5 * dayOfYear + 2) / 153
  let month := if m < 10 then m + 3 else m - 9
  let year := era * 400 + yearOfEra
  ⟨if month ≤ 2 then year + 1 else year, month, dayOfYear - (153 * m + 2) / 5 + 1⟩

/-- The date is in the calendar. -/
def Civil.isValid (d : Civil) : Bool := Civil.ofDay (daysBefore d.year d.month d.day) == d

/-- A moment in universal time: a day, the seconds of that day, and the nanoseconds of that second,
    which go beyond a full second within a leap second. -/
structure Moment where
  day : Int
  second : Nat
  nanos : Nat
  deriving DecidableEq, Repr, Inhabited

/-- A number with zeros in front up to a width. -/
def padded (width n : Nat) : String :=
  let digits := Nat.toDigits 10 n
  String.ofList (List.replicate (width - digits.length) '0' ++ digits)

/-- A year: four digits, and outside those a sign and at least four. -/
def yearText (year : Int) : String :=
  if 0 ≤ year && year ≤ 9999 then padded 4 year.toNat
  else (if year < 0 then "-" else "+") ++ padded 4 year.natAbs

namespace Moment

/-- The written form in universal time; a fraction has three, six or nine digits, or is left out. -/
def render (m : Moment) : String :=
  let date := Civil.ofDay m.day
  let leap := m.nanos / 1000000000
  let nanos := m.nanos % 1000000000
  yearText date.year ++ "-" ++ padded 2 date.month ++ "-" ++ padded 2 date.day ++ "T" ++
    padded 2 (m.second / 3600) ++ ":" ++ padded 2 (m.second / 60 % 60) ++ ":" ++
    padded 2 (m.second % 60 + leap) ++
    (if nanos = 0 then ""
      else if nanos % 1000000 = 0 then "." ++ padded 3 (nanos / 1000000)
      else if nanos % 1000 = 0 then "." ++ padded 6 (nanos / 1000)
      else "." ++ padded 9 nanos) ++ "Z"

/-! ## Reading -/

/-- The text ends where more is needed. -/
def tooShort : String := "premature end of input"

/-- The text holds something else than what is needed. -/
def malformed : String := "input contains invalid characters"

/-- A part of the text names no date or time. -/
def outOfRange : String := "input is out of range"

/-- The moment is none that can be held. -/
def impossible : String := "no possible date and time matching input"

/-- The text goes on after the end. -/
def tooLong : String := "trailing input"

/-- Leaves out white space in front. -/
def skipBlank (cs : List Char) : List Char := cs.dropWhile Text.isBlankChar

/-- The number of a run of digits, at most so many. -/
def number (most : Nat) (cs : List Char) : Except String (Nat × List Char) :=
  match cs with
  | [] => .error tooShort
  | c :: _ =>
    if !c.isDigit then .error malformed
    else
      let digits := (cs.take most).takeWhile Char.isDigit
      let value := Text.decimal digits
      if Number.fitsSigned value then .ok (value, cs.drop digits.length) else .error outOfRange

/-- A year that a word of 32 bits holds, with the text that follows it. -/
def heldYear (n : Int) (rest : List Char) : Except String (Int × List Char) :=
  if Number.fitsUnsigned 32 (n + Number.wordCount 31) then .ok (n, rest) else .error outOfRange

/-- A year: up to four digits, or any number of digits after a sign. -/
def year (cs : List Char) : Except String (Int × List Char) :=
  match skipBlank cs with
  | '-' :: rest => do
    let (n, rest) ← number rest.length rest
    heldYear (-n) rest
  | '+' :: rest => do
    let (n, rest) ← number rest.length rest
    heldYear n rest
  | rest => do
    let (n, rest) ← number 4 rest
    heldYear n rest

/-- Two digits, white space in front left out. -/
def twoDigits (cs : List Char) : Except String (Nat × List Char) := number 2 (skipBlank cs)

/-- A mark between parts, white space in front left out. -/
def mark (expected : Char) (cs : List Char) : Except String (List Char) :=
  match skipBlank cs with
  | [] => .error tooShort
  | c :: rest => if c == expected then .ok rest else .error malformed

/-- A part that has to lie in a range. -/
def within (least most n : Nat) : Except String Unit :=
  if least ≤ n && n ≤ most then .ok () else .error outOfRange

/-- The nanoseconds after a point; digits beyond the ninth do not count. -/
def fraction (cs : List Char) : Except String (Nat × List Char) :=
  match cs with
  | '.' :: rest => do
    let (n, after) ← number 9 rest
    let digits := rest.length - after.length
    return (n * Nat.pow 10 (9 - digits), after.dropWhile Char.isDigit)
  | cs => .ok (0, cs)

/-- Two digits of an offset. A single character is too short if it takes one byte. -/
def offsetPart (most : Char) (cs : List Char) : Except String (Nat × List Char) :=
  match cs with
  | a :: b :: rest =>
    if !a.isDigit || !b.isDigit then .error malformed
    else if a > most then .error outOfRange
    else .ok ((a.toNat - 48) * 10 + (b.toNat - 48), rest)
  | [a] => .error (if a.utf8Size == 1 then tooShort else malformed)
  | [] => .error tooShort

/-- The offset from universal time in seconds. -/
def offset (cs : List Char) : Except String (Int × List Char) :=
  match skipBlank cs with
  | [] => .error tooShort
  | c :: rest =>
    if c == 'Z' || c == 'z' then .ok (0, rest)
    else if (c :: rest.take 2).map Char.toUpper == ['U', 'T', 'C'] then .ok (0, rest.drop 2)
    else if c == '+' || c == '-' || c == '−' then do
      let (hours, rest) ← offsetPart '9' rest
      let rest := rest.dropWhile fun d => d == ':' || Text.isBlankChar d
      let (minutes, rest) ← offsetPart '5' rest
      let seconds : Int := hours * 3600 + minutes * 60
      return (if c == '+' then seconds else -seconds, rest)
    else .error malformed

/-- The letter between a date and a time of day. -/
def divider : List Char → Except String (List Char)
  | [] => .error tooShort
  | c :: rest => if c == 'T' || c == 't' || c == ' ' then .ok rest else .error malformed

/-- The first and the last day that can be held. -/
def dayLimits : Int × Int := (daysBefore (-262143) 1 1, daysBefore 262142 12 31)

/-- The day can be held. -/
def holdsDay (number : Int) : Bool := dayLimits.1 ≤ number && number ≤ dayLimits.2

/-- A date that is in the calendar, as a number of days. -/
def dayOf (year : Int) (month day : Nat) : Except String Int :=
  let number := daysBefore year month day
  if holdsDay number && Civil.isValid ⟨year, month, day⟩ then .ok number else .error outOfRange

/-- Reads a moment from its written form. -/
def read (s : String) : Except String Moment := do
  let (year, cs) ← year s.toList
  let cs ← mark '-' cs
  let (month, cs) ← twoDigits cs
  within 1 12 month
  let cs ← mark '-' cs
  let (day, cs) ← twoDigits cs
  within 1 31 day
  let cs ← divider cs
  let (hour, cs) ← twoDigits cs
  within 0 23 hour
  let cs ← mark ':' cs
  let (minute, cs) ← twoDigits cs
  within 0 59 minute
  let cs ← mark ':' cs
  let (second, cs) ← twoDigits cs
  within 0 60 second
  let (nanos, cs) ← fraction cs
  let (shift, cs) ← offset cs
  if !(skipBlank cs).isEmpty then .error tooLong
  else do
    let number ← dayOf year month day
    if shift.natAbs ≥ 86400 then .error outOfRange
    else
      let leap := if second = 60 then 1 else 0
      let total : Int := ((hour * 60 + minute) * 60 + (second - leap) : Nat) - shift
      let number := number + total.fdiv 86400
      if holdsDay number then
        return ⟨number, (total.fmod 86400).toNat, nanos + leap * 1000000000⟩
      else .error impossible

end Moment

end BootEngine.Time
