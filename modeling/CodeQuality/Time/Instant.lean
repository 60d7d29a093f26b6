import CodeQuality.Time.Calendar

/-!
# Instants

A moment in whole seconds since 1 January 1970 in UTC and the nanoseconds behind them. A leap second
is the last second of a minute drawn out: its nanoseconds run on past 10^9. The seconds are those of
the years -262143 to 262142.
-/

namespace CodeQuality

/-- A moment in UTC. -/
structure Instant where
  /-- whole seconds since 1 January 1970 -/
  seconds : Int
  /-- the nanoseconds behind them; 10^9 and more inside a leap second -/
  nanos : Nat
deriving DecidableEq, Repr

namespace Instant

/-- The first second of year -262143. -/
def firstSecond : Int := -8334601228800

/-- The last second of year 262142. -/
def lastSecond : Int := 8210266876799

def nanosPerSecond : Nat := 1000000000

def secondsPerDay : Int := 86400

/-- Does the moment exist? A leap second is the last of its minute. -/
def valid (t : Instant) : Bool :=
  firstSecond ≤ t.seconds && t.seconds ≤ lastSecond && t.nanos < 2 * nanosPerSecond &&
    (t.nanos < nanosPerSecond || t.seconds % 60 = 59)

/-- The moment with these seconds and nanoseconds, if it exists. -/
def ofUnix? (seconds : Int) (nanos : Nat) : Option Instant :=
  if (⟨seconds, nanos⟩ : Instant).valid then some ⟨seconds, nanos⟩ else none

theorem valid_of_ofUnix? {s : Int} {n : Nat} {t : Instant} (h : ofUnix? s n = some t) :
    t.valid = true := by
  simp only [ofUnix?] at h
  split at h
  · next hv => exact Option.some.inj h ▸ hv
  · simp at h

def isLeap (t : Instant) : Bool := nanosPerSecond ≤ t.nanos

/-- The number of the day. -/
def dayNumber (t : Instant) : Int := t.seconds / secondsPerDay

/-- The seconds of the day. -/
def secondOfDay (t : Instant) : Nat := (t.seconds % secondsPerDay).toNat

def date (t : Instant) : Calendar.Date := .ofNumber t.dayNumber

/-- The year in UTC. -/
def year (t : Instant) : Int := t.date.year

/-- The moment cut to whole milliseconds. -/
def cutToMillis (t : Instant) : Instant := { t with nanos := t.nanos / 1000000 * 1000000 }

/-- The seconds by which time of day `late` lies behind time of day `early`, when a leap second that
lies between them counts as one. -/
def clockSeconds (early late : Instant) : Int :=
  let drawnOut :=
    if early.secondOfDay < late.secondOfDay then if early.isLeap then 1 else 0
    else if late.secondOfDay < early.secondOfDay then if late.isLeap then -1 else 0
    else 0
  (late.secondOfDay : Int) - early.secondOfDay + drawnOut

/-- The nanoseconds from `early` to `late`, which may lie the other way round. -/
def nanosBetween (early late : Instant) : Int :=
  ((late.dayNumber - early.dayNumber) * secondsPerDay + clockSeconds early late) * nanosPerSecond +
    ((late.nanos : Int) - early.nanos)

/-- The whole seconds from `early` to `late`, cut towards zero. -/
def secondsBetween (early late : Instant) : Int :=
  (nanosBetween early late).tdiv nanosPerSecond

end Instant
end CodeQuality
