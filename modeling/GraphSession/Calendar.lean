import GraphSession.Text.Padded

/-!
  Dates and times of day.

  Dates are those of the proleptic Gregorian calendar, with a year zero and negative years.  A time
  of day counts nanoseconds within its second; a count of a thousand million or more marks a leap
  second, which is written as second sixty.  A date and time with an offset from universal time is
  kept in its local fields; two of them are equal when they name the same instant.
-/

namespace GraphSession

/-- A day of the calendar. -/
structure Date where
  year : Int
  month : Nat
  day : Nat
  deriving DecidableEq, Repr

/-- A time of day; `nano` is `10 ^ 9` or more within a leap second. -/
structure TimeOfDay where
  hour : Nat
  minute : Nat
  second : Nat
  nano : Nat
  deriving DecidableEq, Repr

/-- A date and a time of day without an offset. -/
structure LocalDateTime where
  date : Date
  time : TimeOfDay
  deriving DecidableEq, Repr

/-- A date and a time of day at an offset from universal time, in seconds east. -/
structure OffsetDateTime where
  wall : LocalDateTime
  offset : Int
  deriving DecidableEq, Repr

/-- A date as `2024-02-29`; a year outside `0 … 9999` has a sign and at least four digits. -/
def Date.text (d : Date) : String :=
  let year :=
    if 0 ≤ d.year && d.year ≤ 9999 then Text.padded 4 d.year.toNat
    else (if d.year < 0 then "-" else "+") ++ Text.padded 4 d.year.natAbs
  year ++ "-" ++ Text.padded 2 d.month ++ "-" ++ Text.padded 2 d.day

/-- The days from the first of March of year zero, each cycle of 400 years having 146097. -/
def Date.dayNumber (d : Date) : Int :=
  -- The year starts in March, so that a leap day is the last day of its year.
  let year := if d.month ≤ 2 then d.year - 1 else d.year
  let month := (d.month + 9) % 12
  let cycle := year.fdiv 400
  let ofCycle := year - cycle * 400
  let dayOfYear : Int := (153 * month + 2) / 5 + d.day - 1
  cycle * 146097 + ofCycle * 365 + ofCycle / 4 - ofCycle / 100 + dayOfYear

/-- A time of day with no, three, six or nine decimal places, whichever are enough. -/
def TimeOfDay.text (t : TimeOfDay) : String :=
  let leap := 1000000000 ≤ t.nano
  let second := if leap then t.second + 1 else t.second
  let nano := if leap then t.nano - 1000000000 else t.nano
  let fraction :=
    if nano = 0 then ""
    else if nano % 1000000 = 0 then "." ++ Text.padded 3 (nano / 1000000)
    else if nano % 1000 = 0 then "." ++ Text.padded 6 (nano / 1000)
    else "." ++ Text.padded 9 nano
  Text.padded 2 t.hour ++ ":" ++ Text.padded 2 t.minute ++ ":" ++ Text.padded 2 second ++ fraction

/-- The second of the day. -/
def TimeOfDay.secondOfDay (t : TimeOfDay) : Nat :=
  t.hour * 3600 + t.minute * 60 + t.second

/-- Date and time with `separator` between them. -/
def LocalDateTime.text (separator : String) (dt : LocalDateTime) : String :=
  dt.date.text ++ separator ++ dt.time.text

namespace OffsetDateTime

/-- The instant: seconds of universal time since a fixed day, and nanoseconds of the second. -/
def instant (dt : OffsetDateTime) : Int × Nat :=
  (dt.wall.date.dayNumber * 86400 + dt.wall.time.secondOfDay - dt.offset, dt.wall.time.nano)

/-- An offset as `+09:00`, with seconds only when it has some. -/
private def offsetText (offset : Int) : String :=
  let sign := if offset < 0 then "-" else "+"
  let n := offset.natAbs
  let seconds := if n % 60 = 0 then "" else ":" ++ Text.padded 2 (n % 60)
  sign ++ Text.padded 2 (n / 3600) ++ ":" ++ Text.padded 2 (n / 60 % 60) ++ seconds

/-- The form of messages: `2024-01-15 10:30:00 +09:00`. -/
def text (dt : OffsetDateTime) : String :=
  dt.wall.text " " ++ " " ++ offsetText dt.offset

/-- The form of JSON texts: `2024-01-15T10:30:00+09:00`, the offset `Z` when it is zero and
    rounded to whole minutes otherwise. -/
def isoText (dt : OffsetDateTime) : String :=
  let zone :=
    if dt.offset = 0 then "Z"
    else
      let minutes := (dt.offset.natAbs + 30) / 60
      (if dt.offset < 0 then "-" else "+")
        ++ Text.padded 2 (minutes / 60) ++ ":" ++ Text.padded 2 (minutes % 60)
  dt.wall.text "T" ++ zone

end OffsetDateTime

end GraphSession
