import CodeQuality.Time.Instant

/-!
# Ages

How long ago a moment was, in words: the largest unit that fits, and how often it fits. Months have
30 days and years 365. What is less than a minute old happened just now.
-/

namespace CodeQuality

/-- A unit in which ages are told. -/
inductive AgeUnit where
  | minute
  | hour
  | day
  | week
  | month
  | year
deriving DecidableEq, Repr

namespace AgeUnit

def seconds : AgeUnit → Nat
  | minute => 60
  | hour => 3600
  | day => 86400
  | week => 604800
  | month => 2592000
  | year => 31536000

def name : AgeUnit → String
  | minute => "minute"
  | hour => "hour"
  | day => "day"
  | week => "week"
  | month => "month"
  | year => "year"

/-- The units from the longest to the shortest. -/
def all : List AgeUnit := [year, month, week, day, hour, minute]

/-- The longest unit that fits into `s` seconds. -/
def largest? (s : Nat) : Option AgeUnit := all.find? (·.seconds ≤ s)

end AgeUnit

/-- How long ago a moment was. -/
inductive Age where
  | ahead
  | now
  | ago (count : Nat) (unit : AgeUnit)
deriving DecidableEq, Repr

namespace Age

/-- The age of what happened `s` seconds ago. -/
def ofSeconds (s : Int) : Age :=
  if s < 0 then .ahead
  else
    match AgeUnit.largest? s.toNat with
    | none => .now
    | some unit => .ago (s.toNat / unit.seconds) unit

/-- The age that the moment `t` has at the moment `now`. -/
def between (t now : Instant) : Age := ofSeconds (t.secondsBetween now)

def text : Age → String
  | .ahead => "in the future"
  | .now => "just now"
  | .ago n unit => s!"{n} {unit.name}" ++ (if n = 1 then "" else "s") ++ " ago"

/-- The age of an analysis; a dash when there was none. -/
def ofAnalysis (date : Option Instant) (now : Instant) : String :=
  match date with
  | some t => (between t now).text
  | none => "-"

end Age
end CodeQuality
