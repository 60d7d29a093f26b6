/-!
# Octets of a text

A text in UTF-8, and back. Reading marks each malformed stretch, as long as it could have begun a
character, by one `none`; a strict reader refuses a text with such a mark and a lenient one puts
the replacement character in its place.
-/

namespace CodeQuality
namespace Text

/-- The UTF-8 octets of a text. -/
def octets (cs : List Char) : List UInt8 := cs.flatMap String.utf8EncodeChar

/-- What a malformed stretch of octets is read as. -/
def replacement : Char := '\uFFFD'

namespace Octets

/-- A reader of UTF-8 between two octets. -/
inductive State where
  | idle
  /-- `left` more octets belong to the character; the next one lies between `low` and `high` -/
  | within (left : Nat) (value : Nat) (low high : Nat)
deriving DecidableEq, Repr

/-- The first octet of a character. -/
def first (b : Nat) : List (Option Char) × State :=
  if b < 0x80 then ([some (Char.ofNat b)], .idle)
  else if 0xC2 ≤ b && b ≤ 0xDF then ([], .within 1 (b - 0xC0) 0x80 0xBF)
  else if 0xE0 ≤ b && b ≤ 0xEF then
    ([], .within 2 (b - 0xE0) (if b = 0xE0 then 0xA0 else 0x80) (if b = 0xED then 0x9F else 0xBF))
  else if 0xF0 ≤ b && b ≤ 0xF4 then
    ([], .within 3 (b - 0xF0) (if b = 0xF0 then 0x90 else 0x80) (if b = 0xF4 then 0x8F else 0xBF))
  else ([none], .idle)

/-- One octet: what is read by it and where that leaves the reader. -/
def step (b : Nat) : State → List (Option Char) × State
  | .idle => first b
  | .within left value low high =>
    if low ≤ b && b ≤ high then
      let value := value * 64 + (b - 0x80)
      if left ≤ 1 then ([some (Char.ofNat value)], .idle)
      else ([], .within (left - 1) value 0x80 0xBF)
    else
      let (read, state) := first b
      (none :: read, state)

/-- The characters that `bytes` spell, with a `none` for each malformed stretch. -/
def readFrom : State → List UInt8 → List (Option Char)
  | .idle, [] => []
  | .within .., [] => [none]
  | state, b :: bytes =>
    let (read, state) := step b.toNat state
    read ++ readFrom state bytes

/-- The characters that `bytes` spell, with a `none` for each malformed stretch. -/
def read (bytes : List UInt8) : List (Option Char) := readFrom .idle bytes

end Octets

/-- The text that `bytes` spell in UTF-8, if they spell one. -/
def ofOctets? (bytes : List UInt8) : Option (List Char) := (Octets.read bytes).mapM id

/-- The text that `bytes` spell in UTF-8, replacing what is malformed. -/
def ofOctetsLossy (bytes : List UInt8) : List Char :=
  (Octets.read bytes).map (·.getD replacement)

end Text
end CodeQuality
