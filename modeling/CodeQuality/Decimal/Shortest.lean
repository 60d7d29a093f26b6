import CodeQuality.Decimal.Binary64

/-!
# The shortest decimal that reads back

The decimal text of a binary64 number has the fewest digits among those that read back as the same
number, and among these the digits nearest to it. All comparisons are between integers: the number
and the ends of the interval that rounds to it are scaled to one common denominator.
-/

namespace CodeQuality
namespace Decimal

/-- The decimal digits of `n`. -/
def digits (n : Nat) : List Char := Nat.toDigits 10 n

/-- The power of ten of the first digit of `num / den`, for `num` and `den` other than zero. -/
def leadingExponent (num den : Nat) : Int :=
  if den ≤ num then (digits (num / den)).length - 1
  else -((digits ((den + num - 1) / num - 1)).length : Int)

/-- A positive number with the interval that rounds to it, all in parts of one denominator. -/
structure Interval where
  low : Nat
  value : Nat
  high : Nat
  den : Nat
  /-- Do the ends themselves round to the number? -/
  closed : Bool
deriving Repr

namespace Interval

/-- The interval that rounds to `significand · 2 ^ exponent`, in units of `10 ^ k`. -/
def ofBinary (significand : Nat) (exponent k : Int) : Interval :=
  let e := exponent - 2
  let up := Nat.pow 2 e.toNat * Nat.pow 10 (-k).toNat
  let down := Nat.pow 2 (-e).toNat * Nat.pow 10 k.toNat
  let below := if significand = Binary64.minSignificand && Binary64.minExponent < exponent then 1 else 2
  { low := (4 * significand - below) * up
    value := 4 * significand * up
    high := (4 * significand + 2) * up
    den := down
    closed := significand % 2 = 0 }

/-- Does the integer `c` lie in the interval? -/
def holds (i : Interval) (c : Nat) : Bool :=
  if i.closed then i.low ≤ c * i.den && c * i.den ≤ i.high
  else i.low < c * i.den && c * i.den < i.high

/-- The integer nearest to the number among its two neighbours that lie in the interval; of two at
one distance the even one. -/
def nearest? (i : Interval) : Option Nat :=
  let down := i.value / i.den
  let up := down + 1
  match i.holds down, i.holds up with
  | false, false => none
  | true, false => some down
  | false, true => some up
  | true, true =>
    let toDown := i.value - down * i.den
    let toUp := up * i.den - i.value
    if toDown < toUp then some down
    else if toUp < toDown then some up
    else if down % 2 = 0 then some down else some up

end Interval

/-- The first grid, from `n` digits on and at most `fuel` grids, that has a point which reads back:
that point and the power of ten of its last digit. -/
def firstGrid (significand : Nat) (exponent first : Int) : (fuel n : Nat) → Nat × Int
  | 0, _ => (significand, 0)
  | fuel + 1, n =>
    let k := first - (n : Int) + 1
    match (Interval.ofBinary significand exponent k).nearest? with
    | some c => (c, k)
    | none => firstGrid significand exponent first fuel (n + 1)

/-- The digits of `x` and the power of ten of the first of them, for `x` other than zero. -/
def shortest (x : Binary64) : List Char × Int :=
  let (num, den) := x.ratio
  let first := leadingExponent num den
  let (c, k) := firstGrid x.significand x.exponent first 18 1
  let ds := digits c
  let kept := (ds.reverse.dropWhile (· = '0')).reverse
  (kept, k + (ds.length : Int) - 1)

/-- How the digits of a number are laid out. -/
structure Layout where
  /-- the smallest and the largest power of ten of the first digit that is written positionally -/
  lowest : Int
  highest : Int
  /-- is the sign of a positive exponent written? -/
  signedExponent : Bool

namespace Layout

def zeros (n : Nat) : List Char := List.replicate n '0'

/-- The digits `ds`, the first of which stands for `10 ^ e`, without an exponent. -/
def positional (ds : List Char) (e : Int) : List Char :=
  if 0 ≤ e then
    let whole := e.toNat + 1
    if ds.length ≤ whole then ds ++ zeros (whole - ds.length) ++ ['.', '0']
    else ds.take whole ++ '.' :: ds.drop whole
  else '0' :: '.' :: zeros ((-e).toNat - 1) ++ ds

/-- The digits `ds`, the first of which stands for `10 ^ e`, with an exponent. -/
def scientific (signed : Bool) (ds : List Char) (e : Int) : List Char :=
  ds.take 1 ++ (if ds.length ≤ 1 then [] else '.' :: ds.drop 1) ++ ['e'] ++
    (if e < 0 then ['-'] else if signed then ['+'] else []) ++ digits e.natAbs

/-- The text of `x`. -/
def text (layout : Layout) (x : Binary64) : String :=
  let sign := if x.negative then ['-'] else []
  if x.isZero then String.ofList (sign ++ ['0', '.', '0'])
  else
    let (ds, e) := shortest x
    String.ofList <| sign ++
      if layout.lowest ≤ e && e ≤ layout.highest then positional ds e
      else scientific layout.signedExponent ds e

end Layout
end Decimal
end CodeQuality
