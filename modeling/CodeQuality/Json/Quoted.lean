import CodeQuality.Json.Cursor

/-!
# Quoted texts of a document

A text stands between double quotes. Quotes, backslashes and controls in it are written as escapes;
any character may be written by the four hexadecimal digits of its number, and one beyond them by
two surrogates. A text that is not needed can be passed over, and then only its escapes are checked
and surrogates need not be paired.
-/

namespace CodeQuality
namespace Json
namespace Quoted

/-- The value of a hexadecimal digit. -/
def hexValue? (c : Char) : Option Nat :=
  if '0' ≤ c && c ≤ '9' then some (c.toNat - '0'.toNat)
  else if 'a' ≤ c && c ≤ 'f' then some (c.toNat - 'a'.toNat + 10)
  else if 'A' ≤ c && c ≤ 'F' then some (c.toNat - 'A'.toNat + 10)
  else none

/-- The characters that a letter stands for behind a backslash. -/
def escapes : List (Char × Char) :=
  [('"', '"'), ('\\', '\\'), ('/', '/'), ('b', '\x08'), ('f', '\x0c'), ('n', '\n'), ('r', '\r'),
    ('t', '\t')]

/-- The character that `letter` stands for behind a backslash. -/
def unescape? (letter : Char) : Option Char := escapes.lookup letter

/-- The number of octets of a text. -/
def octetCount (cs : List Char) : Nat := (cs.map Char.utf8Size).foldl (· + ·) 0

open Reader

/-- Four hexadecimal digits. -/
def fourDigits : Reader Nat := do
  let c ← get
  if octetCount (c.rest.take 4) < 4 then
    failBehind (octetCount c.rest) .endInText
  match c.rest.take 4 |>.mapM hexValue? with
  | some [x, y, z, w] =>
    skipMany 4
    return ((x * 16 + y) * 16 + z) * 16 + w
  | _ => failBehind 4 .badEscape

/-- Is `n` the first half of a character that is written as two surrogates? -/
def isHighSurrogate (n : Nat) : Bool := 0xD800 ≤ n && n ≤ 0xDBFF

/-- Is `n` the second half of a character that is written as two surrogates? -/
def isLowSurrogate (n : Nat) : Bool := 0xDC00 ≤ n && n ≤ 0xDFFF

/-- Passes over the character `x`, which must come behind a first surrogate. -/
def behindSurrogate (x : Char) : Reader Unit := do
  match ← peek with
  | none => failHere .endInText
  | some c => if c = x then skip else failAhead .surrogateUnpaired

/-- The character whose digits come next. -/
def numbered : Reader Char := do
  let n ← fourDigits
  if isLowSurrogate n then failHere .loneSurrogate
  if isHighSurrogate n then
    behindSurrogate '\\'
    behindSurrogate 'u'
    let m ← fourDigits
    if isLowSurrogate m then
      return Char.ofNat (0x10000 + (n - 0xD800) * 0x400 + (m - 0xDC00))
    else failHere .loneSurrogate
  else return Char.ofNat n

/-- One character of a text, or nothing for the quote that closes it. -/
def piece : Reader (Option Char) := do
  match ← peek with
  | none => failHere .endInText
  | some '"' => do
    skip
    return none
  | some '\\' => do
    skip
    match ← peek with
    | none => failHere .endInText
    | some 'u' => do
      skip
      return some (← numbered)
    | some letter =>
      match unescape? letter with
      | some c => do
        skip
        return some c
      | none => failAhead .badEscape
  | some c =>
    if c.toNat < 0x20 then failAhead .controlInText
    else do
      skip
      return some c

/-- The characters of a text up to the quote that closes it, behind those in `read`, which holds
the last one first. There are at most `fuel` of them. -/
def pieces : (fuel : Nat) → (read : List Char) → Reader (List Char)
  | 0, _ => failHere .endInText
  | fuel + 1, read => do
    match ← piece with
    | none => return read.reverse
    | some c => pieces fuel (c :: read)

/-- A text whose opening quote has been read. -/
def body : Reader String := do
  let c ← get
  return String.ofList (← pieces c.rest.length [])

/-- Passes over one character of a text, and tells whether it was the quote that closes it. -/
def skipPiece : Reader Bool := do
  match ← peek with
  | none => failHere .endInText
  | some '"' => do
    skip
    return true
  | some '\\' => do
    skip
    match ← peek with
    | none => failHere .endInText
    | some 'u' => do
      skip
      let _ ← fourDigits
      return false
    | some letter =>
      if (unescape? letter).isSome then do
        skip
        return false
      else failAhead .badEscape
  | some c =>
    if c.toNat < 0x20 then failHere .controlInText
    else do
      skip
      return false

/-- Passes over a text of at most `fuel` pieces. -/
def skipPieces : (fuel : Nat) → Reader Unit
  | 0 => failHere .endInText
  | fuel + 1 => do
    if ← skipPiece then return ()
    else skipPieces fuel

/-- Passes over a text whose opening quote has been read. -/
def skipBody : Reader Unit := do
  let c ← get
  skipPieces c.rest.length

/-! ### Writing -/

/-- A hexadecimal digit. -/
def hexDigit (n : Nat) : Char := Nat.digitChar n

/-- How a character is written. -/
def encodeChar (c : Char) : List Char :=
  if c = '"' then ['\\', '"']
  else if c = '\\' then ['\\', '\\']
  else if c = '\x08' then ['\\', 'b']
  else if c = '\x0c' then ['\\', 'f']
  else if c = '\n' then ['\\', 'n']
  else if c = '\r' then ['\\', 'r']
  else if c = '\t' then ['\\', 't']
  else if c.toNat < 0x20 then
    ['\\', 'u', '0', '0', hexDigit (c.toNat / 16), hexDigit (c.toNat % 16)]
  else [c]

/-- A text between quotes. -/
def encode (cs : List Char) : List Char := '"' :: cs.flatMap encodeChar ++ ['"']

end Quoted
end Json
end CodeQuality
