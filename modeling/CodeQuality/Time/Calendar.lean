/-!
# The calendar

Days of the proleptic Gregorian calendar and their numbers. Day 0 is 1 January 1970; a day has the
number of days that lie between it and day 0, negative before it. `Date.number` counts whole years
and whole months; `Date.ofNumber` finds the year by an estimate that is off by one at most, and the
month by walking through the year.
-/

namespace CodeQuality
namespace Calendar

/-- Every fourth year is a leap year, except the centuries that 400 does not divide. -/
def isLeapYear (y : Int) : Bool := y % 4 = 0 && (y % 100 != 0 || y % 400 = 0)

/-- The days from 1 January of year 0 to 1 January of year `y`. -/
def daysBeforeYear (y : Int) : Int :=
  365 * y + (y + 3) / 4 - (y + 99) / 100 + (y + 399) / 400

/-- The days of year 0 to 1969. -/
def epoch : Int := daysBeforeYear 1970

/-- The lengths of the months of a year. -/
def monthLengths (leap : Bool) : List Nat :=
  [31, if leap then 29 else 28, 31, 30, 31, 30, 31, 31, 30, 31, 30, 31]

/-- The length of month `m` of year `y`; no days in a month that does not exist. -/
def monthLength (y : Int) (m : Nat) : Nat :=
  if m = 0 then 0 else (monthLengths (isLeapYear y)).getD (m - 1) 0

/-- The days of year `y` before month `m`. -/
def daysBeforeMonth (y : Int) (m : Nat) : Nat :=
  ((monthLengths (isLeapYear y)).take (m - 1)).foldl (· + ·) 0

/-- The year that holds the day `n` days after 1 January of year 0. -/
def yearOf (n : Int) : Int :=
  let y := n * 400 / 146097
  if n < daysBeforeYear y then y - 1
  else if daysBeforeYear (y + 1) ≤ n then y + 1
  else y

/-- Month and day, both from 1 on, of the day `d` days after the first of month `m`, where `lengths`
are the lengths of month `m` and those behind it. -/
def monthAndDay (m d : Nat) : (lengths : List Nat) → Nat × Nat
  | [] => (m, d + 1)
  | l :: lengths => if d < l then (m, d + 1) else monthAndDay (m + 1) (d - l) lengths

/-- A day by year, month and day of the month. -/
structure Date where
  year : Int
  month : Nat
  day : Nat
deriving DecidableEq, Repr

namespace Date

/-- Does the calendar have this day? -/
def valid (d : Date) : Bool :=
  1 ≤ d.month && d.month ≤ 12 && 1 ≤ d.day && d.day ≤ monthLength d.year d.month

/-- The number of the day. -/
def number (d : Date) : Int :=
  daysBeforeYear d.year - epoch + daysBeforeMonth d.year d.month + d.day - 1

/-- The day with number `n`. -/
def ofNumber (n : Int) : Date :=
  let n := n + epoch
  let y := yearOf n
  let (m, d) := monthAndDay 1 (n - daysBeforeYear y).toNat (monthLengths (isLeapYear y))
  ⟨y, m, d⟩

example : number ⟨1970, 1, 1⟩ = 0 := by decide
example : number ⟨2000, 3, 1⟩ = 11017 := by decide
example : ofNumber 11016 = ⟨2000, 2, 29⟩ := by decide
example : ofNumber (-719529) = ⟨-1, 12, 31⟩ := by decide

end Date
end Calendar
end CodeQuality
