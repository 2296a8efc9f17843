import BootEngine.Text.Digits
import BootEngine.Time.Moment

/-!
# Dates and times in TOML documents

A stamp is a date, a time of day, or a date with a time of day and possibly an offset from universal
time. Dates are those of the calendar, a second may be a leap second, and of a fraction nine digits
count.

Contents:
* `Stamp`, `Stamp.text`: stamps and their written form.
* `Stamp.read?`: the stamp in front of a text.
* `Stamp.ofText?`: the stamp that a whole text spells.
-/

namespace BootEngine.Toml

open Text (decimal)
open Time (Civil padded)

/-- A time of day. -/
structure Clock where
  hour : Nat
  minute : Nat
  second : Nat
  nanos : Nat
  deriving DecidableEq, Repr, Inhabited

/-- An offset from universal time: none at all, or a number of minutes. -/
inductive Offset where
  | universal
  | minutes (count : Int)
  deriving DecidableEq, Repr, Inhabited

/-- A date, a time of day, or both. -/
structure Stamp where
  date : Option Civil
  clock : Option Clock
  offset : Option Offset
  deriving DecidableEq, Repr, Inhabited

/-! ## Writing -/

/-- The written form of a time of day; a fraction has no zeros at its end. -/
def Clock.text (c : Clock) : String :=
  let fraction := ((padded 9 c.nanos).toList.reverse.dropWhile (· == '0')).reverse
  padded 2 c.hour ++ ":" ++ padded 2 c.minute ++ ":" ++ padded 2 c.second ++
    if fraction.isEmpty then "" else "." ++ String.ofList fraction

/-- The written form of an offset. -/
def Offset.text : Offset → String
  | universal => "Z"
  | minutes count =>
    (if count < 0 then "-" else "+") ++ padded 2 (count.natAbs / 60) ++ ":" ++
      padded 2 (count.natAbs % 60)

/-- The written form of a date. -/
def dateText (d : Civil) : String :=
  padded 4 d.year.toNat ++ "-" ++ padded 2 d.month ++ "-" ++ padded 2 d.day

/-- The written form of a stamp. -/
def Stamp.text (s : Stamp) : String :=
  let clock := (s.clock.map Clock.text).getD ""
  match s.date with
  | none => clock
  | some d =>
    dateText d ++ (if s.clock.isSome then "T" else "") ++ clock ++
      (s.offset.map Offset.text).getD ""

/-! ## Reading -/

/-- A number of so many digits. -/
def digits? (count : Nat) (cs : List Char) : Option (Nat × List Char) :=
  let digits := cs.take count
  if digits.length == count && digits.all Char.isDigit then some (decimal digits, cs.drop count)
  else none

/-- A character that has to stand here. -/
def expect? (c : Char) : List Char → Option (List Char)
  | d :: rest => if c == d then some rest else none
  | [] => none

/-- A date of the calendar. -/
def date? (cs : List Char) : Option (Civil × List Char) := do
  let (year, rest) ← digits? 4 cs
  let (month, rest) ← digits? 2 (← expect? '-' rest)
  let (day, rest) ← digits? 2 (← expect? '-' rest)
  let date : Civil := ⟨year, month, day⟩
  if date.isValid then some (date, rest) else none

/-- The nanoseconds of a fraction, none without a point that digits follow. -/
def nanos (cs : List Char) : Nat × List Char :=
  match cs with
  | '.' :: rest =>
    let digits := rest.takeWhile Char.isDigit
    if digits.isEmpty then (0, cs)
    else (decimal ((digits ++ List.replicate 9 '0').take 9), rest.drop digits.length)
  | cs => (0, cs)

/-- A time of day. -/
def clock? (cs : List Char) : Option (Clock × List Char) := do
  let (hour, rest) ← digits? 2 cs
  let (minute, rest) ← digits? 2 (← expect? ':' rest)
  let (second, rest) ← digits? 2 (← expect? ':' rest)
  let (nanos, rest) := nanos rest
  if hour ≤ 23 && minute ≤ 59 && second ≤ 60 then some (⟨hour, minute, second, nanos⟩, rest)
  else none

/-- The offsets that are in use: up to 23 hours and 59 minutes. -/
def isCivilOffset (hours minutes : Nat) : Bool := hours ≤ 23 && minutes ≤ 59

/-- The offsets that are no longer than a day, however hours and minutes share them. -/
def isDayOffset (hours minutes : Nat) : Bool := hours * 60 + minutes ≤ 24 * 60

/-- An offset from universal time that a rule admits. -/
def offset? (admits : Nat → Nat → Bool) : List Char → Option (Offset × List Char)
  | [] => none
  | c :: rest =>
    if c == 'Z' || c == 'z' then some (.universal, rest)
    else if c == '+' || c == '-' then do
      let (hours, rest) ← digits? 2 rest
      let (minutes, rest) ← digits? 2 (← expect? ':' rest)
      let count : Int := (hours * 60 + minutes : Nat)
      if admits hours minutes then some (.minutes (if c == '-' then -count else count), rest)
      else none
    else none

/-- The time of day after a date, which a letter or a blank divides from it. -/
def dividedClock? : List Char → Option (Clock × List Char)
  | c :: rest => if c == 'T' || c == 't' || c == ' ' then clock? rest else none
  | [] => none

/-- The stamp in front of a text, with offsets that a rule admits. -/
def Stamp.read? (admits : Nat → Nat → Bool) (cs : List Char) : Option (Stamp × List Char) :=
  match date? cs with
  | some (date, afterDate) =>
    match dividedClock? afterDate with
    | some (clock, afterClock) =>
      match offset? admits afterClock with
      | some (offset, rest) => some (⟨some date, some clock, some offset⟩, rest)
      | none => some (⟨some date, some clock, none⟩, afterClock)
    | none => some (⟨some date, none, none⟩, afterDate)
  | none => (clock? cs).map fun (clock, rest) => (⟨none, some clock, none⟩, rest)

/-- The stamp that a whole text spells. -/
def Stamp.ofText? (s : String) : Option Stamp :=
  match Stamp.read? isDayOffset s.toList with
  | some (stamp, []) => some stamp
  | _ => none

end BootEngine.Toml
