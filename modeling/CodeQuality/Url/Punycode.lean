/-!
# Punycode

A label of a domain in letters, digits and hyphens. The ASCII characters of the label come first,
and then one number for each other character, in ascending order, that tells how far to count before
it is put in: counting runs over all places of the label for one character, then over all for the
next. Numbers are written with variable length in base 36, and how long a digit goes on depends on
the numbers before it. Neither numbers nor labels have an upper bound here.
-/

namespace CodeQuality
namespace Punycode

def base : Nat := 36
def tMin : Nat := 1
def tMax : Nat := 26
def skew : Nat := 38
def damp : Nat := 700
def initialBias : Nat := 72
def initialCode : Nat := 128

/-- The digit with this value. -/
def digit (n : Nat) : Char := Char.ofNat (if n < 26 then n + 'a'.toNat else n - 26 + '0'.toNat)

/-- The value of a digit. -/
def value? (c : Char) : Option Nat :=
  if 'a' ≤ c && c ≤ 'z' then some (c.toNat - 'a'.toNat)
  else if 'A' ≤ c && c ≤ 'Z' then some (c.toNat - 'A'.toNat)
  else if '0' ≤ c && c ≤ '9' then some (c.toNat - '0'.toNat + 26)
  else none

/-- Divides `delta` until it is small: what is left, and `base` for each division. -/
def reduce : (fuel delta k : Nat) → Nat × Nat
  | 0, delta, k => (delta, k)
  | fuel + 1, delta, k =>
    if delta > (base - tMin) * tMax / 2 then reduce fuel (delta / (base - tMin)) (k + base)
    else (delta, k)

/-- The bias behind a number `delta`, when the label then has `length` characters. -/
def adapt (delta length : Nat) (first : Bool) : Nat :=
  let delta := if first then delta / damp else delta / 2
  let delta := delta + delta / length
  let (delta, k) := reduce delta delta 0
  k + (base - tMin + 1) * delta / (delta + skew)

/-- Below which value the digit at distance `k` is the last one. -/
def threshold (bias k : Nat) : Nat := min tMax (max tMin (k - bias))

/-- The digits of a number. -/
def encodeNumber (bias : Nat) : (fuel k q : Nat) → List Char
  | 0, _, q => [digit q]
  | fuel + 1, k, q =>
    let t := threshold bias k
    if q < t then [digit q]
    else digit (t + (q - t) % (base - t)) :: encodeNumber bias fuel (k + base) ((q - t) / (base - t))

/-- How far encoding has come. -/
structure State where
  /-- how far has been counted since the last character that was put in -/
  delta : Nat
  bias : Nat
  /-- how many characters of the label have been put in -/
  handled : Nat
  /-- the characters that have been written, the last one first -/
  written : List Char

/-- Counts past the character `c` of the label while `code` is put in, or puts it in. -/
def encodeStep (basicCount code : Nat) (s : State) (c : Nat) : State :=
  if c < code then { s with delta := s.delta + 1 }
  else if c = code then
    { delta := 0
      bias := adapt s.delta (s.handled + 1) (s.handled = basicCount)
      handled := s.handled + 1
      written := (encodeNumber s.bias s.delta base s.delta).reverse ++ s.written }
  else s

/-- Puts in all characters of the label with a code of at least `code`. -/
def encodeFrom (label : List Nat) (basicCount : Nat) : (fuel code : Nat) → State → State
  | 0, _, s => s
  | fuel + 1, code, s =>
    match (label.filter (code ≤ ·)).min? with
    | none => s
    | some next =>
      let s := { s with delta := s.delta + (next - code) * (s.handled + 1) }
      let s := label.foldl (encodeStep basicCount next) s
      encodeFrom label basicCount fuel (next + 1) { s with delta := s.delta + 1 }

/-- The ASCII characters of a label. -/
def basic (cs : List Char) : List Char := cs.filter (·.toNat < initialCode)

/-- The numbers for the other characters of a label. -/
def numbers (cs : List Char) : List Char :=
  let start : State := ⟨0, initialBias, (basic cs).length, []⟩
  (encodeFrom (cs.map Char.toNat) (basic cs).length cs.length initialCode start).written.reverse

/-- The label `cs` in letters, digits and hyphens. -/
def encode (cs : List Char) : List Char :=
  basic cs ++ (if (basic cs).isEmpty then [] else ['-']) ++ numbers cs

/-! ### Reading -/

/-- Reads the digits of a number, which is added to `i`. -/
def decodeNumber (bias : Nat) : (cs : List Char) → (k weight i : Nat) → Option (Nat × List Char)
  | [], _, _, _ => none
  | c :: cs, k, weight, i => do
    let d ← value? c
    let i := i + d * weight
    let t := threshold bias k
    if d < t then some (i, cs)
    else decodeNumber bias cs (k + base) (weight * (base - t)) i

/-- Puts in the characters that the numbers in `cs` tell, starting from the label `label`. -/
def decodeFrom : (fuel : Nat) → (cs : List Char) → (code i bias : Nat) → (label : List Char) →
    Option (List Char)
  | _, [], _, _, _, label => some label
  | 0, _ :: _, _, _, _, _ => none
  | fuel + 1, cs, code, i, bias, label => do
    let (j, rest) ← decodeNumber bias cs base 1 i
    let size := label.length + 1
    let bias := adapt (j - i) size (i = 0)
    let code := code + j / size
    let place := j % size
    if h : code.isValidChar then
      decodeFrom fuel rest code (place + 1) bias
        (label.take place ++ Char.ofNatAux code h :: label.drop place)
    else none

/-- The ASCII characters of a label before the last hyphen of `cs`, and the numbers behind it. A
hyphen with nothing before it is none that stands between them. -/
def splitBasic (cs : List Char) : List Char × List Char :=
  let behind := (cs.reverse.takeWhile (· ≠ '-')).reverse
  let front := cs.take (cs.length - behind.length - 1)
  if front.isEmpty then ([], cs) else (front, behind)

/-- The label that `cs` stands for. -/
def decode (cs : List Char) : Option (List Char) :=
  let (front, behind) := splitBasic cs
  decodeFrom behind.length behind initialCode 0 initialBias front

end Punycode
end CodeQuality
