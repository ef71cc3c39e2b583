import MusicMacro.Text.Quoted

/-!
# Timestamps

A moment of the calendar with microseconds and an optional offset from universal time
(`Timestamp`), written in the extended ISO 8601 form (`Timestamp.isoText`) and read from any of
the ISO 8601 forms that give a full date (`Timestamp.read`): calendar or week dates, basic or
extended, any one character between date and time, fractions after a point or a comma, `Z` or
an offset down to microseconds.
-/

namespace MusicMacro

/-! ## The calendar -/

def isLeapYear (year : Nat) : Bool := year % 4 = 0 && (year % 100 ≠ 0 || year % 400 = 0)

def daysInMonth (year month : Nat) : Nat :=
  if month = 2 then (if isLeapYear year then 29 else 28)
  else if month = 4 ∨ month = 6 ∨ month = 9 ∨ month = 11 then 30 else 31

/-- Days before the first day of a year, counted from the first day of year 1. -/
def daysBeforeYear (year : Nat) : Nat :=
  (year - 1) * 365 + (year - 1) / 4 - (year - 1) / 100 + (year - 1) / 400

/-- The month and day of a day of the year, counted from zero, starting the search at `month`. -/
def monthAndDay (year : Nat) : (fuel month day : Nat) → Nat × Nat
  | 0, month, day => (month, day + 1)
  | fuel + 1, month, day =>
    if day < daysInMonth year month then (month, day + 1)
    else monthAndDay year fuel (month + 1) (day - daysInMonth year month)

/-- The year that a day lies in, counted from the first day of year 1, starting the search at
`year`, and the day of that year. -/
def yearAndDay : (fuel year day : Nat) → Nat × Nat
  | 0, year, day => (year, day)
  | fuel + 1, year, day =>
    let length := if isLeapYear year then 366 else 365
    if day < length then (year, day) else yearAndDay fuel (year + 1) (day - length)

/-- The weekday of the first day of a year, Monday being zero. -/
def firstWeekday (year : Nat) : Nat := daysBeforeYear year % 7

/-- Whether the ISO calendar gives a year 53 weeks: it starts on a Thursday, or is a leap year
that starts on a Wednesday. -/
def hasWeek53 (year : Nat) : Bool :=
  firstWeekday year = 3 || (firstWeekday year = 2 && isLeapYear year)

/-- The day of an ISO week date of a year from 1 on, counted from the first day of year 1; week 1
holds the first Thursday. -/
def weekDateDay (year week day : Nat) : Nat :=
  daysBeforeYear year + (week - 1) * 7 + (day - 1) + (if firstWeekday year ≤ 3 then 0 else 7) -
    firstWeekday year

/-! ## Timestamps -/

/-- A moment of the calendar; the offset from universal time is in microseconds. -/
structure Timestamp where
  year : Nat
  month : Nat
  day : Nat
  hour : Nat
  minute : Nat
  second : Nat
  microsecond : Nat
  offset : Option Int
deriving DecidableEq, Repr

/-- Why a text is no timestamp. -/
inductive TimestampError where
  | invalid (text : String)
  | year (value : Nat)
  | month
  | day
  | hour
  | minute
  | second
  | offset (microseconds : Int)
deriving DecidableEq

/-- Decimal digits padded with zeros to a width. -/
def padded (width n : Nat) : String :=
  let digits := toString n
  String.ofList (List.replicate (width - digits.length) '0') ++ digits

/-- Microseconds in a day. -/
def microsecondsPerDay : Int := 86400000000

/-- A span of time as messages show it: the days, seconds and microseconds that are not zero,
where only the days may be negative. -/
def spanText (microseconds : Int) : String :=
  let days := microseconds.fdiv microsecondsPerDay
  let inDay := microseconds.fmod microsecondsPerDay
  let field (name : String) (value : Int) := if value = 0 then [] else [name ++ toString value]
  let fields := field "days=" days ++ field "seconds=" (inDay / 1000000) ++
    field "microseconds=" (inDay % 1000000)
  "datetime.timedelta(" ++ (if fields.isEmpty then "0" else String.intercalate ", " fields) ++ ")"

def TimestampError.message : TimestampError → String
  | invalid text => "Invalid isoformat string: " ++ quoted text
  | year value => "year " ++ toString value ++ " is out of range"
  | month => "month must be in 1..12"
  | day => "day is out of range for month"
  | hour => "hour must be in 0..23"
  | minute => "minute must be in 0..59"
  | second => "second must be in 0..59"
  | offset span => "offset must be a timedelta strictly between -timedelta(hours=24) and " ++
      "timedelta(hours=24), not " ++ spanText span ++ "."

namespace Timestamp

/-! ## Writing -/

/-- A fraction of a second, left out when zero. -/
def fractionText (microsecond : Nat) : String :=
  if microsecond = 0 then "" else "." ++ padded 6 microsecond

/-- An offset with its sign; seconds and their fraction only when not zero. -/
def offsetText (offset : Int) : String :=
  let size := offset.natAbs
  let seconds := size / 1000000
  let fraction := size % 1000000
  (if offset < 0 then "-" else "+") ++ padded 2 (seconds / 3600) ++ ":" ++
    padded 2 (seconds / 60 % 60) ++
    (if seconds % 60 = 0 ∧ fraction = 0 then ""
      else ":" ++ padded 2 (seconds % 60) ++ fractionText fraction)

/-- Date and time with a separator between them. -/
def textWith (t : Timestamp) (separator : String) : String :=
  padded 4 t.year ++ "-" ++ padded 2 t.month ++ "-" ++ padded 2 t.day ++ separator ++
    padded 2 t.hour ++ ":" ++ padded 2 t.minute ++ ":" ++ padded 2 t.second ++
    fractionText t.microsecond ++ (t.offset.map offsetText).getD ""

/-- The extended ISO 8601 form. -/
def isoText (t : Timestamp) : String := t.textWith "T"

/-- The timestamp as messages show the value: its fields up to the last that is not zero, minutes
always, and the offset. -/
def shown (t : Timestamp) : String :=
  let fields := [t.year, t.month, t.day, t.hour, t.minute] ++
    (if t.microsecond ≠ 0 then [t.second, t.microsecond]
      else if t.second ≠ 0 then [t.second] else [])
  let zone := match t.offset with
    | none => ""
    | some offset =>
      ", tzinfo=" ++ (if offset = 0 then "datetime.timezone.utc"
        else "datetime.timezone(" ++ spanText offset ++ ")")
  "datetime.datetime(" ++ String.intercalate ", " (fields.map toString) ++ zone ++ ")"

/-! ## Checking -/

/-- The timestamp of given fields, each of which must lie in its range. -/
def ofFields (year month day hour minute second microsecond : Nat) (offset : Option Int) :
    Except TimestampError Timestamp :=
  if (offset.getD 0).natAbs ≥ microsecondsPerDay.natAbs then .error (.offset (offset.getD 0))
  else if year = 0 ∨ 9999 < year then .error (.year year)
  else if month = 0 ∨ 12 < month then .error .month
  else if day = 0 ∨ daysInMonth year month < day then .error .day
  else if 23 < hour then .error .hour
  else if 59 < minute then .error .minute
  else if 59 < second then .error .second
  else .ok ⟨year, month, day, hour, minute, second, microsecond, offset⟩

/-! ## Reading -/

/-- The next character; the end of the text reads as the null character. -/
def next (text : List Char) : Char := text.headD '\x00'

/-- Exactly `count` ASCII digits and what follows them. -/
def takeDigits? : (count : Nat) → (value : Nat) → List Char → Option (Nat × List Char)
  | 0, value, text => some (value, text)
  | count + 1, value, text =>
    match text with
    | c :: rest =>
      if c.isDigit then takeDigits? count (value * 10 + (c.toNat - 48)) rest else none
    | [] => none

/-- How many characters the date takes, told from its fifth and sixth characters; after a week
number a hyphen and a digit are ambiguous, and the hyphen is taken to end the date. -/
def dateLength? (text : List Char) : Option Nat :=
  let at? (i : Nat) := text[i]?
  let digitAt (i : Nat) := (at? i).any Char.isDigit
  if text.length = 7 then some 7
  else if at? 4 = some '-' then
    if at? 5 = some 'W' then
      if at? 8 = some '-' then
        if text.length = 9 then none else if digitAt 10 then some 8 else some 10
      else some 8
    else some 10
  else if at? 4 = some 'W' then
    let stop := 7 + ((text.drop 7).takeWhile Char.isDigit).length
    if stop < 9 then some stop else if stop % 2 = 0 then some 7 else some 8
  else some 8

/-- The year, month and day of a date that takes the whole text. -/
def readDate? (text : List Char) : Option (Nat × Nat × Nat) := do
  let (year, rest) ← takeDigits? 4 0 text
  let separated := next rest = '-'
  let rest := if separated then rest.drop 1 else rest
  if next rest = 'W' then
    let (week, rest) ← takeDigits? 2 0 (rest.drop 1)
    let day ←
      if rest.isEmpty then some 1
      else if separated && next rest ≠ '-' then none
      else (takeDigits? 1 0 (if separated then rest.drop 1 else rest)).map (·.1)
    -- Week dates of year 0 have no month.
    if year = 0 then
      if 1 ≤ week ∧ week ≤ 52 ∧ 1 ≤ day ∧ day ≤ 7 then some (1, 0, 0) else none
    else if week = 0 ∨ 53 < week ∨ (week = 53 ∧ !hasWeek53 year) ∨ day = 0 ∨ 7 < day then none
    else
      let (year, dayOfYear) := yearAndDay 10000 1 (weekDateDay year week day)
      let (month, day) := monthAndDay year 12 1 dayOfYear
      some (year, month, day)
  else
    let (month, rest) ← takeDigits? 2 0 rest
    if separated && next rest ≠ '-' then none
    else
      let (day, _) ← takeDigits? 2 0 (if separated then rest.drop 1 else rest)
      some (year, month, day)

/-- A time of day being read: hour, minute, second, microsecond, and whether characters follow
it. -/
structure ClockTime where
  hour : Nat
  minute : Nat
  second : Nat
  microsecond : Nat
  followed : Bool

/-- Reads the fraction of a second: up to six digits count, further ones are passed over.
`length` is the number of characters that belong to the time. -/
def readFraction? (text : List Char) (length hour minute second : Nat) : Option ClockTime := do
  let width := min length 6
  let (value, rest) ← takeDigits? width 0 text
  let after := rest.dropWhile Char.isDigit
  some ⟨hour, minute, second, value * Nat.pow 10 (6 - width), next after ≠ '\x00'⟩

/-- Ends a time without fraction at the character after its last digits: an offset may start
there or after one ASCII character. -/
def endClock? (mark : Char) (hour minute second : Nat) : Option ClockTime :=
  if mark.toNat < 128 then some ⟨hour, minute, second, 0, mark ≠ '\x00'⟩ else none

/-- Reads `hh[:mm[:ss[.ffffff]]]`, with the colons everywhere or nowhere, from the first `length`
characters of a text; the digits themselves may not run out, but the character after the last
pair of digits may lie beyond. -/
def readClock? (text : List Char) (length : Nat) : Option ClockTime := do
  let (hour, rest) ← takeDigits? 2 0 text
  let mark := next rest
  let separated := mark = ':'
  if length ≤ 3 then return ← endClock? mark hour 0 0
  if mark = '.' ∨ mark = ',' then return ← readFraction? (rest.drop 1) (length - 3) hour 0 0
  let (rest, used) := if separated then (rest.drop 1, 3) else (rest, 2)
  let (minute, rest) ← takeDigits? 2 0 rest
  let mark := next rest
  if length ≤ used + 3 then return ← endClock? mark hour minute 0
  if separated && mark = ':' then readSeconds? (rest.drop 1) (used + 3) hour minute separated
  else if mark = '.' ∨ mark = ',' then
    readFraction? (rest.drop 1) (length - (used + 3)) hour minute 0
  else if separated then none
  else readSeconds? rest (used + 2) hour minute separated
where
  /-- Reads the seconds, which start after `used` characters. -/
  readSeconds? (text : List Char) (used hour minute : Nat) (separated : Bool) :
      Option ClockTime := do
    let (second, rest) ← takeDigits? 2 0 text
    let mark := next rest
    if length ≤ used + 3 then return ← endClock? mark hour minute second
    if (separated && mark = ':') || mark = '.' || mark = ',' then
      readFraction? (rest.drop 1) (length - (used + 3)) hour minute second
    else if separated then none
    else readFraction? rest (length - (used + 2)) hour minute second

/-- Reads a time of day and its offset from universal time. -/
def readTime? (text : List Char) : Option (ClockTime × Option Int) := do
  -- The first character cannot start an offset unless the time is missing.
  let zoneAt := (text.takeWhile fun c => c ≠ '+' ∧ c ≠ '-' ∧ c ≠ 'Z').length
  let clock ← readClock? text zoneAt
  match text.drop zoneAt with
  | [] => if clock.followed then none else some (clock, none)
  | 'Z' :: rest => if next rest = '\x00' then some (clock, some 0) else none
  | sign :: rest =>
    let offset ← readClock? rest rest.length
    if offset.followed then none
    else
      let seconds := offset.hour * 3600 + offset.minute * 60 + offset.second
      let size : Int := seconds * 1000000 + offset.microsecond
      -- An offset below one second counts as none at all.
      some (clock, some (if seconds = 0 then 0 else if sign = '-' then -size else size))

/-- The timestamp that a text spells. -/
def read (text : String) : Except TimestampError Timestamp :=
  let chars := text.toList
  let parsed := do
    if chars.length < 7 then none
    let length ← dateLength? chars
    let date ← readDate? (chars.take length)
    if chars.length ≤ length then some (date, (⟨0, 0, 0, 0, false⟩ : ClockTime), none)
    else
      let (clock, offset) ← readTime? (chars.drop (length + 1))
      some (date, clock, offset)
  match parsed with
  | none => .error (.invalid text)
  | some ((year, month, day), clock, offset) =>
    ofFields year month day clock.hour clock.minute clock.second clock.microsecond offset

end Timestamp

end MusicMacro
