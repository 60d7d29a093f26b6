/-!
# Writing texts in TOML

A text has four written forms, and it is written in the first that needs no escapes: between double
quotes, between single quotes, between three double quotes, between three single quotes. If each of
them would need one, double quotes with escapes are used, three of them if the text has line breaks.
A text with line breaks begins on a line of its own.
-/

namespace CodeQuality
namespace Toml
namespace Quoted

/-- Is `c` a control that no text without escapes holds? -/
def isControl (c : Char) : Bool :=
  (c.toNat < 0x20 && c ≠ '\t' && c ≠ '\n') || c.toNat = 0x7F

/-- The length of the longest run of `q`, where `here` of them stand before `cs`. -/
def longestRun (q : Char) (here : Nat) : List Char → Nat
  | [] => here
  | c :: cs => if c = q then longestRun q (here + 1) cs else max here (longestRun q 0 cs)

/-- The forms in which a text is written. -/
inductive Form where
  | basic
  | literal
  | basicLines
  | literalLines
deriving DecidableEq, Repr

/-- The form in which `cs` is written. -/
def formOf (cs : List Char) : Form :=
  let controls := cs.any isControl
  let breaks := cs.contains '\n'
  let backslash := cs.contains '\\'
  let double := longestRun '"' 0 cs
  let single := longestRun '\'' 0 cs
  if !controls && !backslash && double = 0 && !breaks then .basic
  else if !controls && single = 0 && !breaks then .literal
  else if !controls && !backslash && double ≤ 2 then .basicLines
  else if !controls && single ≤ 2 then .literalLines
  else if breaks then .basicLines
  else .basic

/-- An upper-case hexadecimal digit. -/
def hexDigit (n : Nat) : Char := (Nat.digitChar n).toUpper

/-- A character of a form with escapes. -/
def encodeChar (c : Char) : List Char :=
  if c = '\\' then ['\\', '\\']
  else if c = '\t' then ['\\', 't']
  else if c = '\r' then ['\\', 'r']
  else if c.toNat < 0x20 || c.toNat = 0x7F then
    ['\\', 'u', '0', '0', hexDigit (c.toNat / 16), hexDigit (c.toNat % 16)]
  else [c]

/-- The characters of a text between three double quotes, where `quotes` of them stand before `cs`:
a third quote in a row is escaped. -/
def encodeLines (quotes : Nat) : List Char → List Char
  | [] => []
  | c :: cs =>
    if c = '"' then
      if quotes = 2 then '\\' :: '"' :: encodeLines 0 cs else '"' :: encodeLines (quotes + 1) cs
    else (if c = '\n' then ['\n'] else encodeChar c) ++ encodeLines 0 cs

/-- The characters of a text between double quotes. -/
def encodeLine (cs : List Char) : List Char :=
  cs.flatMap fun c =>
    if c = '"' then ['\\', '"'] else if c = '\n' then ['\\', 'n'] else encodeChar c

/-- The written form of a text. -/
def encode (cs : List Char) : List Char :=
  let lead := if cs.contains '\n' then ['\n'] else []
  match formOf cs with
  | .basic => ['"'] ++ encodeLine cs ++ ['"']
  | .literal => ['\''] ++ cs ++ ['\'']
  | .basicLines => ['"', '"', '"'] ++ lead ++ encodeLines 0 cs ++ ['"', '"', '"']
  | .literalLines => ['\'', '\'', '\''] ++ lead ++ cs ++ ['\'', '\'', '\'']

end Quoted
end Toml
end CodeQuality
