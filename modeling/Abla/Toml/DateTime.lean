import Abla.Text.Quoted

/-!
# Dates and times in TOML values

A TOML value may be a date, a time of day, a date with a time, or a date with a time at an
offset from UTC (a moment). The lexer fixes the shape of their texts: `YYYY-MM-DD`,
`HH:MM:SS` with an optional fraction of any length, and `Z` or `±HH:MM`; reading them checks
the ranges of the fields.

The fields are checked in the order they are written, and the day of the month last, against
the length of its month: months from 1 to 12, hours below 24, minutes and seconds below 60,
offset hours up to 24 and offset minutes up to 60. A date with a time that fails a check is
read once more with a lower-case `t` between date and time, and that second reading's failure
is the one reported: the month, if it is the month that is wrong, and otherwise the `t`. A
fraction keeps its first nine digits, as nanoseconds. An offset of zero is UTC.

Each kind prints in its own way: `1979-05-27`, `07:32:00.250000000` (nine digits of fraction,
if any), `1979-05-27T07:32:00`, and a moment as `1979-05-27 07:32:00.25 -0700 -0700` or
`1979-05-27 07:32:00 +0000 UTC` (fraction without trailing zeros), or in RFC 3339 form without
fraction, `1979-05-27T07:32:00Z`.
-/

namespace Abla

namespace Toml

/-- A calendar date. -/
structure Date where
  year : Nat
  month : Nat
  day : Nat
  deriving Repr, DecidableEq, Inhabited

/-- A time of day, to the nanosecond. -/
structure Clock where
  hour : Nat
  minute : Nat
  second : Nat
  nano : Nat
  deriving Repr, DecidableEq, Inhabited

/-- A date or time value: a date, a time of day, both, or both at an offset from UTC given in
minutes. -/
inductive Stamp where
  | date (d : Date)
  | clock (c : Clock)
  | dateClock (d : Date) (c : Clock)
  | moment (d : Date) (c : Clock) (offset : Int)
  deriving Repr, DecidableEq, Inhabited

/-- Whether a year of the Gregorian calendar is a leap year. -/
def isLeapYear (y : Nat) : Bool := y % 4 = 0 && (y % 100 ≠ 0 || y % 400 = 0)

/-- The number of days of a month of a year. -/
def daysIn (month year : Nat) : Nat :=
  if month = 2 then (if isLeapYear year then 29 else 28)
  else if month = 4 || month = 6 || month = 9 || month = 11 then 30
  else 31

/-- No month is longer than 31 days. -/
theorem daysIn_le (month year : Nat) : daysIn month year ≤ 31 := by
  unfold daysIn
  split
  · split <;> omega
  · split <;> omega

/-- The value of `n` characters from position `i`, read as decimal digits. -/
def digitsAt (cs : List Char) (i n : Nat) : Nat :=
  ((cs.drop i).take n).foldl (fun v c => 10 * v + (c.toNat - '0'.toNat)) 0

/-- The date of a `YYYY-MM-DD` text. -/
def Date.ofText (s : String) : Date :=
  let cs := s.toList
  ⟨digitsAt cs 0 4, digitsAt cs 5 2, digitsAt cs 8 2⟩

/-- The time of a `HH:MM:SS` text with an optional fraction, of which the first nine digits
count. -/
def Clock.ofText (s : String) : Clock :=
  let cs := s.toList
  let frac := ((cs.drop 9).take 9)
  let nano := digitsAt (frac ++ List.replicate (9 - frac.length) '0') 0 9
  ⟨digitsAt cs 0 2, digitsAt cs 3 2, digitsAt cs 6 2, nano⟩

/-- The offset in minutes of a `Z` or `±HH:MM` text, with its hours and minutes. -/
def offsetOfText (s : String) : Int × Nat × Nat :=
  match s.toList with
  | sign :: cs@(_ :: _) =>
    let h := digitsAt cs 0 2
    let m := digitsAt cs 3 2
    let total : Int := (h * 60 + m : Nat)
    (if sign = '-' then -total else total, h, m)
  | _ => (0, 0, 0)

/-- The range error of a reading. -/
def rangeError (text field : String) : String :=
  "parsing time " ++ quote text ++ ": " ++ field ++ " out of range"

/-- The first field of a time of day out of its range, if any. -/
def Clock.badField (c : Clock) : Option String :=
  if c.hour ≥ 24 then some "hour"
  else if c.minute ≥ 60 then some "minute"
  else if c.second ≥ 60 then some "second"
  else none

/-- Reads a date. -/
def readDate (text : String) : Except String Stamp :=
  let d := Date.ofText text
  if d.month < 1 || d.month > 12 then .error (rangeError text "month")
  else if d.day < 1 || d.day > daysIn d.month d.year then .error (rangeError text "day")
  else .ok (.date d)

/-- Reads a time of day; its day is the first of January of the year zero. -/
def readClock (text : String) : Except String Stamp :=
  let c := Clock.ofText text
  match c.badField with
  | some f => .error (rangeError text f)
  | none => .ok (.clock c)

/-- Reads a date with a time. A failed check is followed by a second reading with a lower-case
`t`, whose failure is reported. -/
def readDateClock (date time : String) : Except String Stamp :=
  let text := date ++ "T" ++ time
  let d := Date.ofText date
  let c := Clock.ofText time
  let monthOk := 1 ≤ d.month && d.month ≤ 12
  if monthOk && c.badField.isNone && 1 ≤ d.day && d.day ≤ daysIn d.month d.year then
    .ok (.dateClock d c)
  else if !monthOk then .error (rangeError text "month")
  else
    .error ("parsing time " ++ quote text ++ " as " ++ quote "2006-01-02t15:04:05.999999999" ++
      ": cannot parse " ++ quote ("T" ++ time) ++ " as " ++ quote "t")

/-- Reads a date with a time and an offset. -/
def readMoment (date time offset : String) : Except String Stamp :=
  let text := date ++ "T" ++ time ++ offset
  let d := Date.ofText date
  let c := Clock.ofText time
  let (minutes, h, m) := offsetOfText offset
  if d.month < 1 || d.month > 12 then .error (rangeError text "month")
  else match c.badField with
    | some f => .error (rangeError text f)
    | none =>
      if m > 60 then .error (rangeError text "time zone offset minute")
      else if h > 24 then .error (rangeError text "time zone offset hour")
      else if d.day < 1 || d.day > daysIn d.month d.year then .error (rangeError text "day")
      else .ok (.moment d c minutes)

/-- A number with at least `width` digits, zeros in front. -/
def padded (n width : Nat) : String :=
  let s := toString n
  String.ofList (List.replicate (width - s.length) '0') ++ s

/-- A date as `YYYY-MM-DD`. -/
def Date.text (d : Date) : String :=
  padded d.year 4 ++ "-" ++ padded d.month 2 ++ "-" ++ padded d.day 2

/-- A time as `HH:MM:SS`. -/
def Clock.seconds (c : Clock) : String :=
  padded c.hour 2 ++ ":" ++ padded c.minute 2 ++ ":" ++ padded c.second 2

/-- A time with all nine digits of its fraction, if it has one. -/
def Clock.text (c : Clock) : String :=
  c.seconds ++ (if c.nano = 0 then "" else "." ++ padded c.nano 9)

/-- A time with the digits of its fraction up to the last that is not zero. -/
def Clock.trimmed (c : Clock) : String :=
  if c.nano = 0 then c.seconds
  else
    let ds := (padded c.nano 9).toList.reverse.dropWhile (· = '0') |>.reverse
    c.seconds ++ "." ++ String.ofList ds

/-- An offset as a sign and hours and minutes, with `sep` between them. -/
def offsetText (minutes : Int) (sep : String) : String :=
  let m := minutes.natAbs
  (if minutes < 0 then "-" else "+") ++ padded (m / 60) 2 ++ sep ++ padded (m % 60) 2

namespace Stamp

/-- How a value is printed. -/
def text : Stamp → String
  | .date d => d.text
  | .clock c => c.text
  | .dateClock d c => d.text ++ "T" ++ c.text
  | .moment d c offset =>
    let zone := if offset = 0 then "+0000 UTC"
      else offsetText offset "" ++ " " ++ offsetText offset ""
    d.text ++ " " ++ c.trimmed ++ " " ++ zone

/-- How a value is written back as TOML; a moment is written in RFC 3339 form, to the
second. -/
def tomlText : Stamp → String
  | .moment d c offset =>
    d.text ++ "T" ++ c.seconds ++ (if offset = 0 then "Z" else offsetText offset ":")
  | s => s.text

/-- The name of the decoder's type for a value. -/
def typeName : Stamp → String
  | .date _ => "toml.LocalDate"
  | .clock _ => "toml.LocalTime"
  | .dateClock _ _ => "toml.LocalDateTime"
  | .moment _ _ _ => "time.Time"

/-- The days from the first of January of the year one to a date. -/
def dayNumber (d : Date) : Int :=
  let y : Int := (d.year : Int) - 1
  let before := [31, if isLeapYear d.year then 29 else 28, 31, 30, 31, 30, 31, 31, 30, 31, 30]
  365 * y + y / 4 - y / 100 + y / 400 + ((before.take (d.month - 1)).foldl (· + ·) 0 : Nat) +
    ((d.day : Int) - 1)

/-- The hexadecimal digits of a number, in lower case. -/
def hexLower (n : Nat) : String := String.ofList (Nat.toDigits 16 n)

/-- A date in literal syntax, field by field. -/
def dateLiteral (d : Date) : String :=
  "toml.LocalDate\x7bYear:" ++ toString d.year ++ ", Month:" ++ toString d.month ++ ", Day:" ++
    toString d.day ++ "\x7d"

/-- A time in literal syntax, field by field. -/
def clockLiteral (c : Clock) : String :=
  "toml.LocalTime\x7bHour:" ++ toString c.hour ++ ", Minute:" ++ toString c.minute ++
    ", Second:" ++ toString c.second ++ ", Nanosecond:" ++ toString c.nano ++ "\x7d"

/-- A value in literal syntax, field by field. A moment shows its nanoseconds, its seconds from
the first of January of the year one, UTC, and its zone. -/
def literal : Stamp → String
  | .date d => dateLiteral d
  | .clock c => clockLiteral c
  | .dateClock d c => "toml.LocalDateTime\x7bDate:" ++ dateLiteral d ++ ", Time:" ++
      clockLiteral c ++ "\x7d"
  | .moment d c offset =>
    let secs : Int := dayNumber d * 86400 + (c.hour * 3600 + c.minute * 60 + c.second : Nat) -
      offset * 60
    "time.Time\x7bwall:0x" ++ hexLower c.nano ++ ", ext:" ++ toString secs ++ ", loc:" ++
      (if offset = 0 then "(*time.Location)(nil)" else "(*time.Location)(0xc000100000)") ++ "\x7d"

end Stamp

end Toml

end Abla
