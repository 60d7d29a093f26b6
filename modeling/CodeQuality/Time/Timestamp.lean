import CodeQuality.Text.Blank
import CodeQuality.Text.Numeral
import CodeQuality.Time.Instant

/-!
# Timestamps

The written form of an instant. Two forms are read. In the strict one every number has its full
width and the offset has a colon or is `Z`; in the loose one numbers may be shorter and have blanks
in front, the year may have a sign, and the two halves of the offset may stand next to each other.
Both give a `Reading`, the numbers as they stand, which is an instant if the calendar has the day
and the clock the time. Second 60 is a leap second.

An instant is written in the strict form, in UTC and to the millisecond.
-/

namespace CodeQuality
namespace Timestamp

/-- The numbers of a timestamp. -/
structure Reading where
  date : Calendar.Date
  hour : Nat
  minute : Nat
  second : Nat
  nanos : Nat
  /-- by how many seconds local time is ahead of UTC -/
  offset : Int
deriving DecidableEq, Repr

namespace Reading

/-- Does the clock have this time, and is the offset less than a day? -/
def onClock (r : Reading) : Bool :=
  r.hour < 24 && r.minute < 60 && r.second ≤ 60 && r.offset.natAbs < 86400

/-- The seconds since 1 January 1970 in UTC; second 60 counts as second 59. -/
def seconds (r : Reading) : Int :=
  r.date.number * Instant.secondsPerDay + (r.hour * 3600 + r.minute * 60 + min r.second 59) -
    r.offset

/-- The instant that the numbers denote. -/
def instant? (r : Reading) : Option Instant :=
  if r.date.valid && r.onClock && -262143 ≤ r.date.year && r.date.year ≤ 262142 then
    Instant.ofUnix? r.seconds (if r.second = 60 then Instant.nanosPerSecond + r.nanos else r.nanos)
  else none

end Reading

/-! ### Reading -/

/-- A reader of the front of a text. -/
abbrev Scan := StateT (List Char) Option

namespace Scan

/-- Applies a function that splits off the front of the text. -/
def splitting {α : Type} (split : List Char → α × List Char) : Scan α := fun cs => some (split cs)

/-- One character that satisfies `p`. -/
def satisfying (p : Char → Bool) : Scan Unit
  | c :: cs => if p c then some ((), cs) else none
  | [] => none

/-- The character `c`. -/
def char (c : Char) : Scan Unit := satisfying (· = c)

/-- Skips the characters at the front that satisfy `p`. -/
def skipping (p : Char → Bool) : Scan Unit := fun cs => some ((), cs.dropWhile p)

/-- A number of `min` to `max` digits. -/
def number (min max : Nat) : Scan Nat := do
  let ds ← splitting (Text.splitDigits max)
  if ds.length < min then failure
  return Text.numeralValue ds

/-- Nanoseconds, if a point comes next: digits beyond the ninth do not count. -/
def fraction : Scan Nat
  | '.' :: cs =>
    match Text.splitDigits 9 cs with
    | ([], _) => none
    | (ds, rest) =>
      some (Text.numeralValue ds * Nat.pow 10 (9 - ds.length), rest.dropWhile Char.isDigit)
  | cs => some (0, cs)

/-- A sign, which is negative for either minus. -/
def sign : Scan Bool
  | '+' :: cs => some (false, cs)
  | '-' :: cs => some (true, cs)
  | '\u2212' :: cs => some (true, cs)
  | _ => none

/-- An offset with a sign, two digits of hours and two of minutes, where `between` stands between
them. -/
def signedOffset (between : Scan Unit) : Scan Int := do
  let negative ← sign
  let hours ← number 2 2
  between
  let minutes ← number 2 2
  if 60 ≤ minutes then failure
  let seconds : Int := hours * 3600 + minutes * 60
  return if negative then -seconds else seconds

/-- The offset of the strict form. -/
def strictOffset : Scan Int
  | 'Z' :: cs => some (0, cs)
  | 'z' :: cs => some (0, cs)
  | cs => signedOffset (char ':') cs

/-- The offset of the loose form. -/
def looseOffset : Scan Int := do
  skipping Text.isBlank
  signedOffset (skipping fun c => c = ':' || Text.isBlank c)

/-- A timestamp of the strict form. -/
def strict : Scan Reading := do
  let year ← number 4 4
  char '-'
  let month ← number 2 2
  char '-'
  let day ← number 2 2
  satisfying fun c => c = 'T' || c = 't' || c = ' '
  let hour ← number 2 2
  char ':'
  let minute ← number 2 2
  char ':'
  let second ← number 2 2
  let nanos ← fraction
  let offset ← strictOffset
  return ⟨⟨year, month, day⟩, hour, minute, second, nanos, offset⟩

/-- A year of the loose form: any number of digits behind a sign, at most four without one. -/
def looseYear : Scan Int := do
  skipping Text.isBlank
  fun
  | '-' :: cs => (do return -((← number 1 cs.length : Nat) : Int) : Scan Int) cs
  | '+' :: cs => (do return ((← number 1 cs.length : Nat) : Int) : Scan Int) cs
  | cs => (do return ((← number 1 4 : Nat) : Int) : Scan Int) cs

/-- A number of one or two digits, with blanks in front. -/
def looseNumber : Scan Nat := do
  skipping Text.isBlank
  number 1 2

/-- A timestamp of the loose form. -/
def loose : Scan Reading := do
  let year ← looseYear
  char '-'
  let month ← looseNumber
  char '-'
  let day ← looseNumber
  char 'T'
  let hour ← looseNumber
  char ':'
  let minute ← looseNumber
  char ':'
  let second ← looseNumber
  let nanos ← fraction
  let offset ← looseOffset
  return ⟨⟨year, month, day⟩, hour, minute, second, nanos, offset⟩

/-- What a reader makes of the whole text: nothing may be left, and it must denote an instant. -/
def whole (scan : Scan Reading) (cs : List Char) : Option Instant :=
  match scan.run cs with
  | some (r, []) => r.instant?
  | _ => none

end Scan

/-- The instant that `s` denotes in the strict form, or else in the loose one. -/
def read? (s : String) : Option Instant :=
  Scan.strict.whole s.toList <|> Scan.loose.whole s.toList

/-! ### Writing -/

/-- A year: four digits, and a sign and more digits where four are not enough. -/
def yearText (y : Int) : List Char :=
  if 0 ≤ y && y ≤ 9999 then Text.padded 4 y.toNat
  else (if y < 0 then '-' else '+') :: Text.padded 4 y.natAbs

/-- The written form of a day. -/
def dayChars (d : Calendar.Date) : List Char :=
  yearText d.year ++ '-' :: Text.padded 2 d.month ++ '-' :: Text.padded 2 d.day

/-- The written form of `t`. -/
def chars (t : Instant) : List Char :=
  let s := t.secondOfDay
  let (second, nanos) :=
    if t.isLeap then (s % 60 + 1, t.nanos - Instant.nanosPerSecond) else (s % 60, t.nanos)
  dayChars t.date ++
    'T' :: Text.padded 2 (s / 3600) ++ ':' :: Text.padded 2 (s / 60 % 60) ++
    ':' :: Text.padded 2 second ++ '.' :: Text.padded 3 (nanos / 1000000) ++ ['Z']

/-- The written form of `t`. -/
def text (t : Instant) : String := String.ofList (chars t)

end Timestamp
end CodeQuality
