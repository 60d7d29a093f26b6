import CodeQuality.Json.Cursor
import CodeQuality.Text.Numeral

/-!
# Numbers of a document

Digits are taken up as long as the integer they make fits into 64 bits; digits of the whole part
that are left over count as powers of ten, and those of the fraction do not count. A number without
fraction and exponent is an integer if it fits, and any other is the integer of its digits, rounded
to a binary64 number, times or over the power of ten, rounded again.
-/

namespace CodeQuality
namespace Json
namespace NumberText

/-- Takes up digits behind `n` as long as the value is at most `bound`: the value, and the digits
left over. -/
def absorb (bound : Nat) : (n : Nat) → (digits : List Char) → Nat × List Char
  | n, [] => (n, [])
  | n, d :: ds =>
    let next := 10 * n + Text.digitValue d
    if next ≤ bound then absorb bound next ds else (n, d :: ds)

/-- The largest significand. -/
def maxSignificand : Nat := 0xFFFFFFFFFFFFFFFF

/-- The largest exponent that is told from larger ones. -/
def maxExponent : Nat := 0x7FFFFFFF

/-- The largest power of ten that is divided by at once. -/
def maxPower : Nat := 308

/-- `x` over `10 ^ k`, in steps of the largest power, until nothing is left of `x`. -/
def dividedBy (x : Binary64) : (fuel k : Nat) → Option Binary64
  | 0, _ => some x
  | fuel + 1, k =>
    if k ≤ maxPower then (Binary64.ofNat (Nat.pow 10 k)).bind x.div
    else if x.isZero then some x
    else do
      let x ← (Binary64.ofNat (Nat.pow 10 maxPower)).bind x.div
      dividedBy x fuel (k - maxPower)

/-- `significand · 10 ^ exponent`, unless it is too large. -/
def scale (significand : Nat) (exponent : Int) : Option Binary64 := do
  let x ← Binary64.ofNat significand
  if 0 ≤ exponent then
    if exponent.toNat ≤ maxPower then (Binary64.ofNat (Nat.pow 10 exponent.toNat)).bind x.mul
    else if x.isZero then some x
    else none
  else dividedBy x (exponent.natAbs + 1) exponent.natAbs

open Reader

/-- The decimal digits that come next. -/
def digits : Reader (List Char) := fun c =>
  .ok (c.rest.takeWhile Char.isDigit, c.dropWhile Char.isDigit)

/-- The number with the sign, significand and exponent that have been read. -/
def scaled (negative : Bool) (significand : Nat) (exponent : Int) : Reader Number := do
  match scale significand exponent with
  | some x => return .float (if negative then x.neg else x)
  | none => failHere .numberTooLarge

/-- The exponent behind its letter, where `exponent` is the power of ten of the digits before it. -/
def exponentPart (negative : Bool) (significand : Nat) (exponent : Int) : Reader Number := do
  skip
  let down ← do
    match ← peek with
    | some '+' => skip; pure false
    | some '-' => skip; pure true
    | _ => pure false
  match ← peek with
  | none => failHere .endInValue
  | some c => if !c.isDigit then failAhead .badNumber
  let start ← get
  let ds ← digits
  match absorb maxExponent 0 ds with
  | (n, []) => scaled negative significand (if down then exponent - n else exponent + n)
  | (_, left) =>
    if significand ≠ 0 && !down then do
      set (start.drop (ds.length - left.length + 1))
      failHere .numberTooLarge
    else return .float ⟨negative, 0, Binary64.minExponent⟩

/-- The fraction from its point on, where `exponent` is the power of ten of the digits before it. -/
def fractionPart (negative : Bool) (significand : Nat) (exponent : Int) : Reader Number := do
  skip
  let ds ← digits
  if ds.isEmpty then
    match ← peek with
    | none => failHere .endInValue
    | some _ => failAhead .badNumber
  let (significand, left) := absorb maxSignificand significand ds
  let exponent := exponent - ((ds.length - left.length : Nat) : Int)
  match ← peek with
  | some 'e' | some 'E' => exponentPart negative significand exponent
  | _ => scaled negative significand exponent

/-- The integer with this sign and size if it fits into 64 bits, a floating point number if not. -/
def integer (negative : Bool) (n : Nat) : Reader Number := do
  if !negative then return .integer n
  else if n ≠ 0 && n ≤ 0x8000000000000000 then return .integer (-(n : Int))
  else scaled true n 0

/-- What follows the digits of the whole part, `left` of which were left over. -/
def behindWhole (negative : Bool) (significand left : Nat) : Reader Number := do
  match ← peek with
  | some '.' => fractionPart negative significand left
  | some 'e' | some 'E' => exponentPart negative significand left
  | _ => if left = 0 then integer negative significand else scaled negative significand left

/-- A number behind its sign. -/
def unsigned (negative : Bool) : Reader Number := do
  match ← peek with
  | none => failHere .endInValue
  | some '0' => do
    skip
    if ((← peek).any Char.isDigit) then failAhead .badNumber
    behindWhole negative 0 0
  | some c =>
    if c.isDigit then do
      let ds ← digits
      let (significand, left) := absorb maxSignificand 0 ds
      behindWhole negative significand left.length
    else failAhead .badNumber

/-- A number. -/
def read : Reader Number := do
  match ← peek with
  | some '-' => do
    skip
    unsigned true
  | _ => unsigned false

/-! ### Passing over a number -/

/-- Passes over the digits that come next. -/
def skipDigits : Reader Unit := modify (·.dropWhile Char.isDigit)

/-- Passes over a digit. -/
def skipDigit : Reader Unit := do
  if (← peek).any Char.isDigit then skip else failAhead .badNumber

/-- Passes over an exponent from its letter on, if there is one. -/
def skipExponent : Reader Unit := do
  match ← peek with
  | some 'e' | some 'E' => do
    skip
    match ← peek with
    | some '+' | some '-' => skip
    | _ => pure ()
    skipDigit
    skipDigits
  | _ => return ()

/-- Passes over a fraction from its point on and over an exponent, if there are any. -/
def skipFraction : Reader Unit := do
  match ← peek with
  | some '.' => do
    skip
    skipDigit
    skipDigits
    skipExponent
  | _ => skipExponent

/-- Passes over a number. -/
def skipNumber : Reader Unit := do
  if (← peek) = some '-' then skip
  match ← peek with
  | some '0' => do
    skip
    if (← peek).any Char.isDigit then failAhead .badNumber
  | _ => do
    skipDigit
    skipDigits
  skipFraction

end NumberText
end Json
end CodeQuality
