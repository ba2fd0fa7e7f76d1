import Turnstile.Time.Timestamp

/-!
# Calendar text

The text of a timestamp: date and time of day in the Gregorian calendar, carried
on in both directions, followed by `Z`. A year outside 0 to 9999 has a sign. The
part of a second has as many digits as it needs of 0, 3, 6 and 9. A leap second
is written as second 60.

The day is found from a count of years that begin in March, so that the leap day
ends the year: four hundred of them have 146097 days.
-/

namespace Turnstile.Calendar

/-- A day of the Gregorian calendar. -/
structure Date where
  year : Int
  month : Nat
  day : Nat
deriving DecidableEq, Repr

/-- The date some days after the epoch. -/
def dateOfDays (days : Int) : Date :=
  let shifted := days + 719468
  let era := shifted / 146097
  let dayOfEra := (shifted % 146097).toNat
  let yearOfEra :=
    (dayOfEra - dayOfEra / 1460 + dayOfEra / 36524 - dayOfEra / 146096) / 365
  let dayOfYear := dayOfEra - (365 * yearOfEra + yearOfEra / 4 - yearOfEra / 100)
  let monthFromMarch := (5 * dayOfYear + 2) / 153
  let day := dayOfYear - (153 * monthFromMarch + 2) / 5 + 1
  let month := if monthFromMarch < 10 then monthFromMarch + 3 else monthFromMarch - 9
  let year := era * 400 + yearOfEra + (if month ≤ 2 then 1 else 0)
  ⟨year, month, day⟩

/-- The digits of a year, with a sign outside 0 to 9999. -/
def yearText (year : Int) : List Char :=
  if 0 ≤ year ∧ year ≤ 9999 then Numeral.padded 4 year.toNat
  else (if year < 0 then '-' else '+') :: Numeral.padded 4 year.natAbs

/-- The digits of a part of a second: none, or the point and 3, 6 or 9. -/
def partText (nanos : Nat) : List Char :=
  if nanos = 0 then []
  else if nanos % 1000000 = 0 then '.' :: Numeral.padded 3 (nanos / 1000000)
  else if nanos % 1000 = 0 then '.' :: Numeral.padded 6 (nanos / 1000)
  else '.' :: Numeral.padded 9 nanos

/-- The text of a timestamp. -/
def text (t : Timestamp) : String :=
  let date := dateOfDays (t.seconds / 86400)
  let second := t.secondOfDay.toNat
  let two := Numeral.padded 2
  String.ofList <|
    yearText date.year ++ '-' :: two date.month ++ '-' :: two date.day ++
    'T' :: two (second / 3600) ++ ':' :: two (second / 60 % 60) ++
    ':' :: two (second % 60 + t.part / 1000000000) ++
    partText (t.part % 1000000000) ++ ['Z']

end Turnstile.Calendar
