/-!
The proleptic Gregorian calendar, counted in days from 1970-01-01. Years begin in March here, so
that the day added in a leap year is the last of its year.
-/
namespace ChangeFeed.Time

/-- A day of the calendar; year 0 is the year before year 1. -/
structure Date where
  year : Int
  month : Nat
  day : Nat
deriving DecidableEq, Repr

namespace Date

def isLeap (year : Int) : Bool :=
  year % 4 == 0 && (year % 100 != 0 || year % 400 == 0)

def monthLength (year : Int) (month : Nat) : Nat :=
  if month = 2 then (if isLeap year then 29 else 28)
  else if month = 4 ∨ month = 6 ∨ month = 9 ∨ month = 11 then 30
  else 31

def Exists (d : Date) : Prop :=
  1 ≤ d.month ∧ d.month ≤ 12 ∧ 1 ≤ d.day ∧ d.day ≤ monthLength d.year d.month

instance (d : Date) : Decidable d.Exists := by unfold Exists; infer_instance

/-- Days in the years of an era of four hundred years before year `y` of it. -/
def daysBeforeYear (y : Int) : Int := y * 365 + y / 4 - y / 100

/-- Days in a year that begins in March before month `m` of it, March being month 0. -/
def daysBeforeMonth (m : Int) : Int := (153 * m + 2) / 5

def eraLength : Int := 146097

/-- Days from the first of March of year 0 to 1970-01-01. -/
def epochDay : Int := 719468

def toDays (d : Date) : Int :=
  let y := if d.month ≤ 2 then d.year - 1 else d.year
  let m : Int := if d.month ≤ 2 then d.month + 9 else d.month - 3
  y / 400 * eraLength + daysBeforeYear (y % 400) + daysBeforeMonth m + (d.day - 1) - epochDay

def ofDays (days : Int) : Date :=
  let z := days + epochDay
  let e := z % eraLength
  let y := (e - e / 1460 + e / 36524 - e / 146096) / 365
  let n := e - daysBeforeYear y
  let m := (5 * n + 2) / 153
  let day := n - daysBeforeMonth m + 1
  let month := if m < 10 then m + 3 else m - 9
  let year := z / eraLength * 400 + y + if month ≤ 2 then 1 else 0
  ⟨year, month.toNat, day.toNat⟩

end Date

end ChangeFeed.Time
