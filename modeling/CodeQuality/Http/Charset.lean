import CodeQuality.Text.Blank
import CodeQuality.Text.Octets

/-!
# Character encodings of bodies

The text of a body. A mark at its front tells the encoding; without one the header does, and without
that it is UTF-8. Octets that spell no character are replaced.
-/

namespace CodeQuality
namespace Http

/-- How the characters of a body are encoded. -/
inductive Charset where
  | utf8
  | utf16Little
  | utf16Big
  | windows1252
deriving DecidableEq, Repr

namespace Charset

/-- The names of each encoding. -/
def labels : List (Charset × List String) :=
  [(utf8, ["unicode-1-1-utf-8", "unicode11utf8", "unicode20utf8", "utf-8", "utf8",
      "x-unicode20utf8"]),
    (utf16Little, ["csunicode", "iso-10646-ucs-2", "ucs-2", "unicode", "unicodefeff", "utf-16",
      "utf-16le"]),
    (utf16Big, ["unicodefffe", "utf-16be"]),
    (windows1252, ["ansi_x3.4-1968", "ascii", "cp1252", "cp819", "csisolatin1", "ibm819",
      "iso-8859-1", "iso-ir-100", "iso8859-1", "iso88591", "iso_8859-1", "iso_8859-1:1987", "l1",
      "latin1", "us-ascii", "windows-1252", "x-cp1252"])]

/-- The encoding that a label names, whatever the case of its letters. There are labels of some
forty more encodings, those of single scripts, which are not told apart from unknown ones here, so
that a body in one of them is read as UTF-8. -/
def ofLabel? (label : String) : Option Charset :=
  let name := (Text.trim label).map Char.toLower
  (labels.find? (·.2.contains name)).map (·.1)

/-- The characters that windows-1252 has in place of the controls from 0x80 to 0x9F. -/
def windowsControls : List Nat :=
  [0x20AC, 0x81, 0x201A, 0x192, 0x201E, 0x2026, 0x2020, 0x2021, 0x2C6, 0x2030, 0x160, 0x2039,
    0x152, 0x8D, 0x17D, 0x8F, 0x90, 0x2018, 0x2019, 0x201C, 0x201D, 0x2022, 0x2013, 0x2014, 0x2DC,
    0x2122, 0x161, 0x203A, 0x153, 0x9D, 0x17E, 0x178]

def windowsChar (b : UInt8) : Char :=
  Char.ofNat (if 0x80 ≤ b.toNat && b.toNat ≤ 0x9F then windowsControls.getD (b.toNat - 0x80) 0
    else b.toNat)

/-- The units of two octets each, and whether an octet is left over. -/
def units (big : Bool) : List UInt8 → List Nat × Bool
  | a :: b :: rest =>
    let (us, odd) := units big rest
    ((if big then a.toNat * 256 + b.toNat else b.toNat * 256 + a.toNat) :: us, odd)
  | [_] => ([], true)
  | [] => ([], false)

def isHigh (u : Nat) : Bool := 0xD800 ≤ u && u ≤ 0xDBFF
def isLow (u : Nat) : Bool := 0xDC00 ≤ u && u ≤ 0xDFFF

/-- The characters that units of 16 bits spell. -/
def ofUnits : List Nat → List Char
  | u :: v :: us =>
    if isHigh u then
      if isLow v then Char.ofNat (0x10000 + (u - 0xD800) * 0x400 + (v - 0xDC00)) :: ofUnits us
      else Text.replacement :: ofUnits (v :: us)
    else (if isLow u then Text.replacement else Char.ofNat u) :: ofUnits (v :: us)
  | [u] => [if isHigh u || isLow u then Text.replacement else Char.ofNat u]
  | [] => []

/-- The characters that units of two octets spell. An octet or half a pair at the end is replaced
once. -/
def ofUnitOctets (big : Bool) (bytes : List UInt8) : List Char :=
  let (us, odd) := units big bytes
  let pending := (us.getLast?).any isHigh
  ofUnits us ++ if odd && !pending then [Text.replacement] else []

/-- The characters that `bytes` spell. -/
def decode (charset : Charset) (bytes : List UInt8) : List Char :=
  match charset with
  | utf8 => Text.ofOctetsLossy bytes
  | utf16Little => ofUnitOctets false bytes
  | utf16Big => ofUnitOctets true bytes
  | windows1252 => bytes.map windowsChar

/-- The text of a body whose header names `charset`. -/
def textOf (charset : Option Charset) : List UInt8 → String
  | 0xEF :: 0xBB :: 0xBF :: bytes => String.ofList (decode utf8 bytes)
  | 0xFF :: 0xFE :: bytes => String.ofList (decode utf16Little bytes)
  | 0xFE :: 0xFF :: bytes => String.ofList (decode utf16Big bytes)
  | bytes => String.ofList (decode (charset.getD utf8) bytes)

end Charset
end Http
end CodeQuality
