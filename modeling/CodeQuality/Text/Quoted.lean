import CodeQuality.Text.QuotedTable

/-!
# Quoted texts

A text between double quotes, as error messages show it. The quote and the backslash have a
backslash before them, the usual controls a letter, and what does not stand for itself is shown by
its number in braces.
-/

namespace CodeQuality
namespace Text
namespace Quoted

/-- The lower-case hexadecimal digits of `n`, without leading zeros. -/
def hexDigits (n : Nat) : List Char := Nat.toDigits 16 n

/-- How one character looks between quotes. -/
def encodeChar (c : Char) : List Char :=
  if c = '"' then ['\\', '"']
  else if c = '\\' then ['\\', '\\']
  else if c = '\n' then ['\\', 'n']
  else if c = '\r' then ['\\', 'r']
  else if c = '\t' then ['\\', 't']
  else if c = '\x00' then ['\\', '0']
  else if inRanges numberedRanges c then
    ['\\', 'u', '\x7b'] ++ hexDigits c.toNat ++ ['\x7d']
  else [c]

end Quoted

/-- `s` between double quotes. -/
def quoted (s : String) : String :=
  "\"" ++ String.ofList (s.toList.flatMap Quoted.encodeChar) ++ "\""

end Text
end CodeQuality
