/-!
# Floating point numbers of 64 bits

A finite binary64 number is a sign, a significand below 2^53 and an exponent of two. Arithmetic is
exact on integers and rounds once at the end: to the nearest number, a tie to the even significand.
A result too large for the format is `none`.
-/

namespace CodeQuality

/-- The number `± significand · 2 ^ exponent`. -/
structure Binary64 where
  negative : Bool
  significand : Nat
  exponent : Int
deriving DecidableEq, Repr

namespace Binary64

/-- The smallest exponent: all subnormal numbers and zero have it. -/
def minExponent : Int := -1074

/-- The largest exponent of a finite number. -/
def maxExponent : Int := 971

/-- The smallest significand of a number that is not subnormal; all are less than twice it. -/
def minSignificand : Nat := 0x10000000000000

/-- `num / den` in units of `2 ^ e`, as a fraction. -/
def inUnits (num den : Nat) (e : Int) : Nat × Nat :=
  if 0 ≤ e then (num, den * Nat.pow 2 e.toNat) else (num * Nat.pow 2 (-e).toNat, den)

/-- The exponent with which `num / den` has a significand of 53 bits, or the smallest exponent. -/
def exponentFor (num den : Nat) : Int :=
  let guess : Int := (Nat.log2 num : Int) - (Nat.log2 den : Int) - 53
  let (n, d) := inUnits num den guess
  max (if n / d < 2 * minSignificand then guess else guess + 1) minExponent

/-- `n / d` rounded to an integer, a tie to the even one. -/
def roundEven (n d : Nat) : Nat :=
  let q := n / d
  let r := n % d
  if d < 2 * r || (2 * r = d && q % 2 = 1) then q + 1 else q

/-- The number nearest to `± num / den`, if it is finite. -/
def ofRatio (negative : Bool) (num den : Nat) : Option Binary64 :=
  if num = 0 then some ⟨negative, 0, minExponent⟩
  else
    let e := exponentFor num den
    let (n, d) := inUnits num den e
    let m := roundEven n d
    let (m, e) := if m = 2 * minSignificand then (minSignificand, e + 1) else (m, e)
    if maxExponent < e then none else some ⟨negative, m, e⟩

/-- The number nearest to the integer `n`, if it is finite. -/
def ofNat (n : Nat) : Option Binary64 := ofRatio false n 1

/-- The size of `x` as a fraction. -/
def ratio (x : Binary64) : Nat × Nat :=
  if 0 ≤ x.exponent then (x.significand * Nat.pow 2 x.exponent.toNat, 1)
  else (x.significand, Nat.pow 2 (-x.exponent).toNat)

def neg (x : Binary64) : Binary64 := { x with negative := !x.negative }

/-- The product, if it is finite. -/
def mul (x y : Binary64) : Option Binary64 :=
  let (a, b) := x.ratio
  let (c, d) := y.ratio
  ofRatio (x.negative != y.negative) (a * c) (b * d)

/-- The quotient by a number other than zero, if it is finite. -/
def div (x y : Binary64) : Option Binary64 :=
  let (a, b) := x.ratio
  let (c, d) := y.ratio
  ofRatio (x.negative != y.negative) (a * d) (b * c)

def isZero (x : Binary64) : Bool := x.significand = 0

example : ofNat 1 = some ⟨false, minSignificand, -52⟩ := by decide +kernel
example : ofNat (2 * minSignificand + 1) = some ⟨false, minSignificand, 1⟩ := by decide +kernel
example : ofRatio false 1 3 = some ⟨false, 6004799503160661, -54⟩ := by decide +kernel

end Binary64
end CodeQuality
