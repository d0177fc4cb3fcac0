import IvrmDashboard.Foundations.Sql.Timestamp

/-!
# Date-times with an offset

The format that the language of the web application specifies for its dates: a year of four digits,
or of six with a sign, a month and a day that may be left out, a time with or without seconds, any
number of fractional digits, and a zone. `Js.dateParse` reads all of it and counts a day that the
month does not have on into the next one. The database reads of it what names a day of the calendar
in four digits of the year, with an offset below sixteen hours and inside its buffer
(`Sql.castTimestamptz`).
-/

/-- `Z`, or an offset from it. -/
inductive Zone
  | utc
  | offset (west : Bool) (hours minutes : ℕ)
  deriving DecidableEq

/-- A date-time as it is written. -/
structure DateTime where
  expandedYear : Bool
  year : ℤ
  month : Option ℕ
  day : Option ℕ
  hour : ℕ
  minute : ℕ
  second : ℕ
  fraction : List Char
  zone : Zone
  deriving DecidableEq

namespace DateTime

/-! ## The format -/

/-- A number of `width` digits, and what follows it. -/
def digits (width : ℕ) (l : List Char) : Option (ℕ × List Char) :=
  if (l.take width).length = width && (l.take width).all Char.isDigit then
    some (Nat.ofDigitChars 10 (l.take width) 0, l.drop width)
  else none

/-- A year, and whether it is an expanded one; there is no year `-000000`. -/
def readYear : List Char → Option (Bool × ℤ × List Char)
  | '+' :: l => (digits 6 l).map fun (y, l) => (true, y, l)
  | '-' :: l => (digits 6 l).bind fun (y, l) => if y = 0 then none else some (true, -y, l)
  | l => (digits 4 l).map fun (y, l) => (false, y, l)

/-- A month or a day, if there is one. -/
def readPart : List Char → Option (Option ℕ × List Char)
  | '-' :: l => (digits 2 l).map fun (n, l) => (some n, l)
  | l => some (none, l)

/-- Seconds with their fraction, if there are any. -/
def readSeconds : List Char → Option (ℕ × List Char × List Char)
  | ':' :: l => (digits 2 l).bind fun (second, l) =>
    match l with
    | '.' :: l =>
      if l.takeWhile Char.isDigit = [] then none
      else some (second, l.takeWhile Char.isDigit, l.dropWhile Char.isDigit)
    | l => some (second, [], l)
  | l => some (0, [], l)

/-- The zone, at the end. -/
def readZone : List Char → Option Zone
  | ['Z'] => some .utc
  | c :: l =>
    if c = '+' || c = '-' then
      (digits 2 l).bind fun (hours, l) =>
        match l with
        | ':' :: l => (digits 2 l).bind fun (minutes, l) =>
          if l = [] then some (.offset (c = '-') hours minutes) else none
        | _ => none
    else none
  | [] => none

/-- What follows the character `c`. -/
def after (c : Char) : List Char → Option (List Char)
  | [] => none
  | d :: l => if d = c then some l else none

/-- The date-time a text spells. -/
def parse (s : String) : Option DateTime := do
  let (expandedYear, year, l) ← readYear s.toList
  let (month, l) ← readPart l
  let (day, l) ← if month.isSome then readPart l else some (none, l)
  let l ← after 'T' l
  let (hour, l) ← digits 2 l
  let l ← after ':' l
  let (minute, l) ← digits 2 l
  let (second, fraction, l) ← readSeconds l
  let zone ← readZone l
  return { expandedYear, year, month, day, hour, minute, second, fraction, zone }

/-! ## Its meaning -/

variable (t : DateTime)

/-- The time is one of the day; `24:00:00` ends it. -/
def timeInRange : Bool :=
  (t.hour ≤ 23 || (t.hour = 24 && t.minute = 0 && t.second = 0 && t.fraction.all (· = '0'))) &&
    t.minute ≤ 59 && t.second ≤ 59

/-- The offset in seconds, to the east. -/
def offsetSeconds : ℤ :=
  match t.zone with
  | .utc => 0
  | .offset west hours minutes =>
    (if west then -1 else 1) * (3600 * (hours : ℤ) + 60 * minutes)

/-- The whole seconds since 1970-01-01 00:00 UTC; a month or a day that is missing is the first. -/
def seconds : ℤ :=
  Sql.daysOfCivil ⟨t.year, t.month.getD 1, t.day.getD 1⟩ * 86400 + 3600 * t.hour + 60 * t.minute +
    t.second - t.offsetSeconds

end DateTime

namespace Js

/-- The ranges of the parts. -/
def dateTimeInRange (t : DateTime) : Bool :=
  t.month.all (fun m => 1 ≤ m && m ≤ 12) && t.day.all (fun d => 1 ≤ d && d ≤ 31) &&
    t.timeInRange &&
    match t.zone with
    | .utc => true
    | .offset _ hours minutes => hours ≤ 23 && minutes ≤ 59

/-- The milliseconds of a fraction: its first three digits. -/
def milliseconds (fraction : List Char) : ℕ :=
  Nat.ofDigitChars 10 ((fraction ++ ['0', '0', '0']).take 3) 0

/-- `Date.parse(s)`, where it is finite, of a date-time with an offset. -/
def parseDateTime (s : String) : Option ℤ := do
  let t ← DateTime.parse s
  let ms := t.seconds * 1000 + milliseconds t.fraction
  if dateTimeInRange t && ms.natAbs ≤ 8640000000000000 then some ms else none

end Js

namespace Sql

/-- How the server rounds a fraction of a second to microseconds. -/
class FractionReading where
  microseconds : List Char → ℤ

/-- The days of a month. -/
def daysInMonth (year : ℤ) (month : ℕ) : ℕ :=
  if month = 2 then
    if year % 4 = 0 && (year % 100 ≠ 0 || year % 400 = 0) then 29 else 28
  else if month ∈ [4, 6, 9, 11] then 30 else 31

/-- The day is one of the calendar, from 1 AD on, its year in four digits. -/
def calendarDay (t : DateTime) : Bool :=
  !t.expandedYear && 1 ≤ t.year &&
    t.month.any fun m => 1 ≤ m && m ≤ 12 && t.day.any fun d => 1 ≤ d && d ≤ daysInMonth t.year m

/-- The offset is below sixteen hours. -/
def zoneInRange : Zone → Bool
  | .utc => true
  | .offset _ hours minutes => hours ≤ 15 && minutes ≤ 59

/-- The longest text of a date-time: the date, the letter, the time and the zone are copied, each
with a byte at its end, into a buffer of 153 bytes. -/
def dateTimeLimit : ℕ := 149

/-- `s::timestamptz` of a date-time with an offset. -/
def castTimestamptz [FractionReading] (s : String) : Option ℤ := do
  let t ← DateTime.parse s
  if calendarDay t && t.timeInRange && zoneInRange t.zone && s.length ≤ dateTimeLimit then
    some (t.seconds * 1000000 + FractionReading.microseconds t.fraction)
  else none

end Sql
