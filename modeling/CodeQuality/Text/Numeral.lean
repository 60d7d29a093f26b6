/-!
# Decimal numerals

Numbers as runs of decimal digits: the value of a run, the run of a value, and the run of a value
filled up with zeros in front.
-/

namespace CodeQuality
namespace Text

/-- The value of a decimal digit. -/
def digitValue (c : Char) : Nat := c.toNat - '0'.toNat

/-- The value of a run of decimal digits; an empty run is zero. -/
def numeralValue (ds : List Char) : Nat := ds.foldl (fun n c => 10 * n + digitValue c) 0

/-- The decimal digits of `n`, without leading zeros. -/
def numeral (n : Nat) : List Char := Nat.toDigits 10 n

/-- The decimal digits of `n`, with zeros in front up to `width` digits. -/
def padded (width n : Nat) : List Char :=
  let ds := numeral n
  List.replicate (width - ds.length) '0' ++ ds

/-- The digits at the front of `cs`, at most `max` of them, and what follows them. -/
def splitDigits : (max : Nat) → (cs : List Char) → List Char × List Char
  | 0, cs => ([], cs)
  | _ + 1, [] => ([], [])
  | max + 1, c :: cs =>
    if c.isDigit then
      let (ds, rest) := splitDigits max cs
      (c :: ds, rest)
    else ([], c :: cs)

end Text
end CodeQuality
