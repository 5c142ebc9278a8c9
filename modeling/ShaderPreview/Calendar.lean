import ShaderPreview.Decimal.Whole

/-!
# Dates

The date and time of day, in universal time, that lie a number of seconds after the beginning of the
year 1970.  Years are counted from the first of March, so that the day that leap years add comes
last; four hundred years have 146097 days.

* `Date`, `Date.ofDays`: the date so many days after the first of January 1970;
* `timestamp`: date and time of day as text.
-/

namespace ShaderPreview

/-- A date of the Gregorian calendar. -/
structure Date where
  year : Int
  month : Int
  day : Int
  deriving DecidableEq, Repr

/-- The date that lies `days` after the first of January 1970. -/
def Date.ofDays (days : Int) : Date :=
  let shifted := days + 719468
  let era := shifted / 146097
  let dayOfEra := shifted % 146097
  let yearOfEra := (dayOfEra - dayOfEra / 1460 + dayOfEra / 36524 - dayOfEra / 146096) / 365
  let dayOfYear := dayOfEra - (365 * yearOfEra + yearOfEra / 4 - yearOfEra / 100)
  let monthFromMarch := (5 * dayOfYear + 2) / 153
  let day := dayOfYear - (153 * monthFromMarch + 2) / 5 + 1
  let month := if monthFromMarch < 10 then monthFromMarch + 3 else monthFromMarch - 9
  let year := yearOfEra + 400 * era + if month ≤ 2 then 1 else 0
  ⟨year, month, day⟩

/-- A number with zeros in front, up to the given width. -/
def paddedNumber (width : Nat) (n : Int) : String :=
  let ds := Decimal.digits n.toNat
  String.ofList (List.replicate (width - ds.length) '0' ++ ds)

/-- Date and time of day at a number of seconds after the beginning of 1970. -/
def timestamp (seconds : Int) : String :=
  let date := Date.ofDays (seconds / 86400)
  let second := seconds % 86400
  paddedNumber 4 date.year ++ "-" ++ paddedNumber 2 date.month ++ "-" ++ paddedNumber 2 date.day ++
    " " ++ paddedNumber 2 (second / 3600) ++ ":" ++ paddedNumber 2 (second / 60 % 60) ++ ":" ++
    paddedNumber 2 (second % 60) ++ " UTC"

/-- The day that leap years add. -/
example : Date.ofDays 11016 = ⟨2000, 2, 29⟩ := by decide

/-- The day before the count begins. -/
example : Date.ofDays (-1) = ⟨1969, 12, 31⟩ := by decide

end ShaderPreview
