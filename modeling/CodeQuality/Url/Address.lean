import CodeQuality.Text.Numeral
import CodeQuality.Text.Parts
import CodeQuality.Url.Percent

/-!
# Network addresses

Addresses of four and of sixteen octets as hosts. The parts of a short address may be decimal, octal
behind `0` or hexadecimal behind `0x`, and the last one fills all octets that are left. A long
address is eight groups of hexadecimal digits, of which one run of zeros may be written as two
colons; its last four octets may be written as a short address in decimal.
-/

namespace CodeQuality
namespace Address

/-- The value of a numeral with digits below `base`. -/
def numeral? (base : Nat) (cs : List Char) : Option Nat :=
  cs.foldlM (fun n c => do
    let d ← Percent.hexValue? c
    if d < base then some (base * n + d) else none) 0

/-! ### Short addresses -/

/-- The value of a part of a short address. -/
def shortPart? : List Char → Option Nat
  | [] => none
  | '0' :: 'x' :: cs => numeral? 16 cs
  | '0' :: 'X' :: cs => numeral? 16 cs
  | '0' :: c :: cs => numeral? 8 (c :: cs)
  | cs => numeral? 10 cs

/-- The parts of a short address; a point at the end is not counted. -/
def shortParts (cs : List Char) : List (List Char) :=
  let parts := Text.split '.' cs
  if parts.getLast? = some [] then parts.dropLast else parts

/-- Is the last part a number, so that `cs` can be nothing but a short address? -/
def endsInNumber (cs : List Char) : Bool :=
  match (shortParts cs).getLast? with
  | none => false
  | some part => (!part.isEmpty && part.all Char.isDigit) || (shortPart? part).isSome

/-- The value of a short address. -/
def short? (cs : List Char) : Option Nat := do
  let numbers ← (shortParts cs).mapM shortPart?
  let last ← numbers.getLast?
  let front := numbers.dropLast
  if 3 < front.length || front.any (255 < ·) || Nat.pow 256 (4 - front.length) ≤ last then none
  else some (front.foldl (fun n part => 256 * n + part) 0 * Nat.pow 256 (4 - front.length) + last)

/-- The octets of a short address in decimal. -/
def shortChars (n : Nat) : List Char :=
  Text.join '.' ([n / 0x1000000, n / 0x10000 % 256, n / 0x100 % 256, n % 256].map Text.numeral)

/-! ### Long addresses -/

/-- The value of a group of one to four hexadecimal digits. -/
def group? (cs : List Char) : Option Nat :=
  if cs.isEmpty || 4 < cs.length then none else numeral? 16 cs

/-- The value of an octet in decimal without leading zeros. -/
def octet? (cs : List Char) : Option Nat :=
  if cs.isEmpty || (1 < cs.length && cs.head? = some '0') || 3 < cs.length then none
  else (numeral? 10 cs).filter (· ≤ 255)

/-- The two groups that are written as a short address. -/
def embedded? (cs : List Char) : Option (List Nat) := do
  match ← (Text.split '.' cs).mapM octet? with
  | [a, b, c, d] => some [256 * a + b, 256 * c + d]
  | _ => none

/-- Groups between colons; only the last may be written as a short address, and that only if
`atEnd`. -/
def groups? (atEnd : Bool) : List (List Char) → Option (List Nat)
  | [] => some []
  | [part] => if atEnd && part.contains '.' then embedded? part else (group? part).map ([·])
  | part :: parts => do return (← group? part) :: (← groups? atEnd parts)

/-- The groups that `cs` holds; no text holds none. -/
def groupsOf? (atEnd : Bool) (cs : List Char) : Option (List Nat) :=
  if cs.isEmpty then some [] else groups? atEnd (Text.split ':' cs)

/-- What stands before and behind the first two colons in a row. -/
def cutAtGap : List Char → Option (List Char × List Char)
  | ':' :: ':' :: cs => some ([], cs)
  | c :: cs => (cutAtGap cs).map fun (before, behind) => (c :: before, behind)
  | [] => none

/-- The eight groups of a long address. -/
def long? (cs : List Char) : Option (List Nat) := do
  match cutAtGap cs with
  | none =>
    let groups ← groupsOf? true cs
    if groups.length = 8 then some groups else none
  | some (before, behind) =>
    let front ← groupsOf? false before
    let back ← groupsOf? true behind
    if front.length + back.length ≤ 7 then
      some (front ++ List.replicate (8 - front.length - back.length) 0 ++ back)
    else none

/-- The number of zeros at the front of `groups`. -/
def zeros (groups : List Nat) : Nat := (groups.takeWhile (· = 0)).length

/-- Where the longest run of zeros begins in `groups`, whose first group is number `place`, and how
long it is; the first of several. -/
def longestRun (place : Nat) : List Nat → Nat × Nat
  | [] => (place, 0)
  | g :: groups =>
    let later := longestRun (place + 1) groups
    let here := zeros (g :: groups)
    if later.2 ≤ here then (place, here) else later

/-- A group in hexadecimal. -/
def groupChars (n : Nat) : List Char := Nat.toDigits 16 n

/-- A long address; its longest run of at least two zeros is left out. -/
def longChars (groups : List Nat) : List Char :=
  let (place, length) := longestRun 0 groups
  let written (gs : List Nat) : List Char := Text.join ':' (gs.map groupChars)
  if length < 2 then written groups
  else written (groups.take place) ++ ':' :: ':' :: written (groups.drop (place + length))

end Address
end CodeQuality
