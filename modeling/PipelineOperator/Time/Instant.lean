import PipelineOperator.Decimal.Basic

/-!
Points in time, counted in seconds and nanoseconds from the start of 1970, and their texts in the
proleptic Gregorian calendar: with an offset and as many fraction digits as needed, in groups of
three (`Instant.withOffset`), or to the second with a final `Z` (`Instant.toSecond`).
-/

set_option autoImplicit false
set_option relaxedAutoImplicit false

namespace PipelineOperator

/-- A point in time. A fraction of a whole second or more belongs to a leap second. -/
structure Instant where
  seconds : Int
  nanos : Nat := 0
deriving DecidableEq

/-- A day of the Gregorian calendar. -/
structure Date where
  year : Int
  month : Nat
  day : Nat
deriving DecidableEq

namespace Date

/-- The day that lies so many days after the first of January 1970. Years are counted from March,
so that the leap day ends a year. -/
def ofDays (days : Int) : Date :=
  let shifted := days + 719468
  let era := shifted / 146097
  let dayOfEra := (shifted % 146097).toNat
  let yearOfEra := (dayOfEra - dayOfEra / 1460 + dayOfEra / 36524 - dayOfEra / 146096) / 365
  let dayOfYear := dayOfEra - (365 * yearOfEra + yearOfEra / 4 - yearOfEra / 100)
  let march := (5 * dayOfYear + 2) / 153
  let month := if march < 10 then march + 3 else march - 9
  { year := era * 400 + yearOfEra + if month ≤ 2 then 1 else 0
    month
    day := dayOfYear - (153 * march + 2) / 5 + 1 }

/-- Days from the first of January 1970. -/
def toDays (date : Date) : Int :=
  let year := if date.month ≤ 2 then date.year - 1 else date.year
  let era := year / 400
  let yearOfEra := year % 400
  let march := if date.month ≤ 2 then date.month + 9 else date.month - 3
  let dayOfYear : Int := (153 * march + 2) / 5 + date.day - 1
  era * 146097 + (yearOfEra * 365 + yearOfEra / 4 - yearOfEra / 100 + dayOfYear) - 719468

/-- The day exists in its month. -/
def isValid (date : Date) : Bool :=
  1 ≤ date.month && date.month ≤ 12 && 1 ≤ date.day && ofDays date.toDays == date

example : ofDays 0 = ⟨1970, 1, 1⟩ := by decide
example : ofDays 11016 = ⟨2000, 2, 29⟩ := by decide
example : toDays ⟨2000, 2, 29⟩ = 11016 := by decide
example : isValid ⟨1900, 2, 29⟩ = false := by decide

end Date

namespace Instant

/-- The first second of the calendar, 262143 years before the year 0. -/
def firstSecond : Int := -8334601228800

/-- The last second of the calendar, at the end of the year 262142. -/
def lastSecond : Int := 8210266876799

/-- The point is in the calendar, and a leap second is the last of its minute. -/
def isValid (t : Instant) : Bool :=
  firstSecond ≤ t.seconds && t.seconds ≤ lastSecond && t.nanos < 2000000000 &&
    (t.nanos < 1000000000 || t.seconds % 60 == 59)

example : Date.ofDays (firstSecond / 86400) = ⟨-262143, 1, 1⟩ := by decide
example : Date.ofDays (lastSecond / 86400) = ⟨262142, 12, 31⟩ := by decide

/-- Digits with leading zeros up to a width. -/
def padded (width n : Nat) : List Char :=
  let digits := Decimal.digitChars n
  List.replicate (width - digits.length) '0' ++ digits

/-- A year has four digits, and a sign outside the first ten thousand years. -/
def yearChars (year : Int) : List Char :=
  if 0 ≤ year ∧ year ≤ 9999 then padded 4 year.natAbs
  else (if year < 0 then '-' else '+') :: padded 4 year.natAbs

/-- No digits for a whole second, else three, six or nine. -/
def fractionChars (nanos : Nat) : List Char :=
  if nanos = 0 then []
  else if nanos % 1000000 = 0 then '.' :: padded 3 (nanos / 1000000)
  else if nanos % 1000 = 0 then '.' :: padded 6 (nanos / 1000)
  else '.' :: padded 9 nanos

/-- A year of four characters at least, of which a minus sign is one. -/
def shortYearChars (year : Int) : List Char :=
  if year < 0 then '-' :: padded 3 year.natAbs else padded 4 year.natAbs

/-- Date and time to the second, with the year written in a given way. -/
def dateTime (year : Int → List Char) (t : Instant) : List Char :=
  let date := Date.ofDays (t.seconds / 86400)
  let second := (t.seconds % 86400).toNat
  year date.year ++ '-' :: padded 2 date.month ++ '-' :: padded 2 date.day ++
    'T' :: padded 2 (second / 3600) ++ ':' :: padded 2 (second / 60 % 60) ++
    ':' :: padded 2 (second % 60 + t.nanos / 1000000000)

/-- The full text in universal time with its offset. -/
def withOffset (t : Instant) : String :=
  String.ofList (t.dateTime yearChars ++ fractionChars (t.nanos % 1000000000) ++
    ['+', '0', '0', ':', '0', '0'])

/-- The text to the second. -/
def toSecond (t : Instant) : String := String.ofList (t.dateTime shortYearChars ++ ['Z'])

end Instant

end PipelineOperator
