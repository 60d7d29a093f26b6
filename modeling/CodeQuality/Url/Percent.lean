import CodeQuality.Text.Octets

/-!
# Percent encoding

A character that may not stand for itself in a part of a URL is written octet by octet, each as a
percent sign and two hexadecimal digits. Which characters those are depends on the part; no part
holds a control or a character outside ASCII.
-/

namespace CodeQuality
namespace Percent

/-- An upper-case hexadecimal digit. -/
def hexDigit (n : Nat) : Char := (Nat.digitChar n).toUpper

/-- The value of a hexadecimal digit. -/
def hexValue? (c : Char) : Option Nat :=
  if '0' ≤ c && c ≤ '9' then some (c.toNat - '0'.toNat)
  else if 'a' ≤ c && c ≤ 'f' then some (c.toNat - 'a'.toNat + 10)
  else if 'A' ≤ c && c ≤ 'F' then some (c.toNat - 'A'.toNat + 10)
  else none

/-- An octet as a percent sign and two digits. -/
def escape (b : UInt8) : List Char :=
  ['%', hexDigit (b.toNat / 16), hexDigit (b.toNat % 16)]

/-- Controls and characters outside ASCII. -/
def isControl (c : Char) : Bool := c.toNat < 0x20 || 0x7F ≤ c.toNat

def inFragment (c : Char) : Bool :=
  isControl c || c = ' ' || c = '"' || c = '<' || c = '>' || c.toNat = 0x60

def inPath (c : Char) : Bool := inFragment c || c = '#' || c = '?' || c = '\x7b' || c = '\x7d'

def inUserInfo (c : Char) : Bool :=
  inPath c || c = '/' || c = ':' || c = ';' || c = '=' || c = '@' || c = '[' || c = '\\' ||
    c = ']' || c = '^' || c = '|'

def inQuery (c : Char) : Bool :=
  isControl c || c = ' ' || c = '"' || c = '#' || c = '<' || c = '>'

def inSpecialQuery (c : Char) : Bool := inQuery c || c.toNat = 0x27

/-- `cs` with the characters of a set written octet by octet. -/
def encode (isEncoded : Char → Bool) (cs : List Char) : List Char :=
  cs.flatMap fun c => if isEncoded c then (String.utf8EncodeChar c).flatMap escape else [c]

/-- The octets that `cs` stands for; a percent sign without two digits stands for itself. -/
def decode : List Char → List UInt8
  | '%' :: x :: y :: cs =>
    match hexValue? x, hexValue? y with
    | some a, some b => UInt8.ofNat (16 * a + b) :: decode cs
    | _, _ => String.utf8EncodeChar '%' ++ decode (x :: y :: cs)
  | c :: cs => String.utf8EncodeChar c ++ decode cs
  | [] => []

end Percent
end CodeQuality
