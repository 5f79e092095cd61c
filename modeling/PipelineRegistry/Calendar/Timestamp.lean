import PipelineRegistry.Calendar.Date
import PipelineRegistry.Text.Digits

/-! # Timestamps

An instant in coordinated universal time, to the nanosecond.  The last minute of a day may have a
second 60, and so may any other minute: a leap second is kept as it was given.

A timestamp is written as date, `T`, time and `Z`.  The fraction of the second has the fewest of
0, 3, 6 or 9 places that show it exactly; years outside 0 to 9999 have a sign and at least four
digits. -/

namespace PipelineRegistry.Calendar
open Text

/-- A day, the minute of that day, the second of that minute and the nanosecond of that second. -/
structure Timestamp where
  date : Date
  minute : Nat
  second : Nat
  nanosecond : Nat
deriving DecidableEq, Repr

namespace Timestamp

/-- Minutes of a day. -/
def minutesPerDay : Nat := 1440

/-- Whether the parts lie in their ranges. -/
def IsValid (t : Timestamp) : Prop :=
  t.date.IsValid ∧ t.minute < minutesPerDay ∧ t.second ≤ 60 ∧ t.nanosecond < 1000000000

instance (t : Timestamp) : Decidable t.IsValid := by unfold IsValid; infer_instance

/-- The instant `seconds` and `nanoseconds` after the start of the year 1970. -/
def ofEpoch (seconds : Int) (nanoseconds : Nat) : Timestamp :=
  let secondOfDay := (seconds % 86400).toNat
  ⟨.ofDayNumber (seconds / 86400), secondOfDay / 60, secondOfDay % 60, nanoseconds⟩

/-- The written form of a year. -/
def yearText (year : Int) : List Char :=
  if 0 ≤ year ∧ year ≤ 9999 then padded 4 year.toNat
  else (if year < 0 then '-' else '+') :: padded 4 year.natAbs

/-- The written form of the fraction of a second. -/
def fractionText (nanosecond : Nat) : List Char :=
  if nanosecond = 0 then []
  else if nanosecond % 1000000 = 0 then '.' :: padded 3 (nanosecond / 1000000)
  else if nanosecond % 1000 = 0 then '.' :: padded 6 (nanosecond / 1000)
  else '.' :: padded 9 nanosecond

/-- The written form. -/
def text (t : Timestamp) : List Char :=
  yearText t.date.year ++ '-' :: padded 2 t.date.month ++ '-' :: padded 2 t.date.day ++
    'T' :: padded 2 (t.minute / 60) ++ ':' :: padded 2 (t.minute % 60) ++
    ':' :: padded 2 t.second ++ fractionText t.nanosecond ++ ['Z']

end Timestamp
end PipelineRegistry.Calendar
