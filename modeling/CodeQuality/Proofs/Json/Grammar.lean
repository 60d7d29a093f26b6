import CodeQuality.Proofs.Json.Reading
import CodeQuality.Text.Parts

/-!
# The grammar of JSON

Which texts are JSON, told without a reader: numbers, quoted texts, and values of any depth. A
quoted text may escape single surrogates, a number may have any size and any number of digits, and
an object may repeat a name. Blanks may stand around every value and every name, and a document is a
value with blanks around it.

* `IsNumber`, `IsQuoted`, `IsValue` — the texts of numbers, of quoted texts and of values.
* `IsDocument` — the texts of documents.
-/

namespace CodeQuality
namespace Json

/-! ### Numbers -/

/-- One decimal digit at least. -/
def IsDigits (cs : List Char) : Prop := cs ≠ [] ∧ ∀ c ∈ cs, c.isDigit = true

/-- Digits without a leading zero, or a single zero. -/
def IsWhole (cs : List Char) : Prop := cs = ['0'] ∨ IsDigits cs ∧ cs.head? ≠ some '0'

/-- A point with digits behind it, or nothing. -/
def IsFraction (cs : List Char) : Prop := cs = [] ∨ ∃ ds, IsDigits ds ∧ cs = '.' :: ds

/-- A letter for the exponent with digits behind it, which may have a sign, or nothing. -/
def IsExponent (cs : List Char) : Prop :=
  cs = [] ∨ ∃ letter sign ds, (letter = 'e' ∨ letter = 'E') ∧
    (sign = [] ∨ sign = ['+'] ∨ sign = ['-']) ∧ IsDigits ds ∧ cs = letter :: (sign ++ ds)

/-- The text of a number. -/
def IsNumber (cs : List Char) : Prop :=
  ∃ sign whole fraction exponent, (sign = [] ∨ sign = ['-']) ∧ IsWhole whole ∧
    IsFraction fraction ∧ IsExponent exponent ∧ cs = sign ++ (whole ++ (fraction ++ exponent))

/-! ### Quoted texts -/

/-- A hexadecimal digit, of either case. -/
def IsHexDigit (c : Char) : Prop :=
  '0' ≤ c ∧ c ≤ '9' ∨ 'a' ≤ c ∧ c ≤ 'f' ∨ 'A' ≤ c ∧ c ≤ 'F'

/-- What stands for one character between quotes, or for one surrogate. -/
inductive IsPiece : List Char → Prop where
  | self {c : Char} (hquote : c ≠ '"') (hslash : c ≠ '\\') (hcontrol : 0x20 ≤ c.toNat) : IsPiece [c]
  | escape {letter : Char} (h : letter ∈ ['"', '\\', '/', 'b', 'f', 'n', 'r', 't']) :
    IsPiece ['\\', letter]
  | number {x y z w : Char} (h : ∀ c ∈ [x, y, z, w], IsHexDigit c) :
    IsPiece ['\\', 'u', x, y, z, w]

/-- The pieces of a text up to the quote that closes it. -/
inductive IsQuotedRest : List Char → Prop where
  | close : IsQuotedRest ['"']
  | piece {p cs : List Char} (hp : IsPiece p) (hcs : IsQuotedRest cs) : IsQuotedRest (p ++ cs)

/-- The text of a quoted text. -/
def IsQuoted (cs : List Char) : Prop := ∃ rest, IsQuotedRest rest ∧ cs = '"' :: rest

/-! ### Values -/

/-- A text with blanks around it. -/
structure Padded where
  lead : List Char
  core : List Char
  trail : List Char
  lead_blank : Blanks lead
  trail_blank : Blanks trail

def Padded.chars (p : Padded) : List Char := p.lead ++ p.core ++ p.trail

/-- The name of a member, the colon, and its value. -/
def pairChars (m : Padded × Padded) : List Char := m.1.chars ++ ':' :: m.2.chars

/-- What stands between the brackets of a container: its parts with commas between them, and nothing
but blanks behind them. -/
def partsChars (parts : List (List Char)) (close : List Char) : List Char :=
  Text.join ',' parts ++ close

/-- The text of a value. -/
inductive IsValue : List Char → Prop where
  | null : IsValue ['n', 'u', 'l', 'l']
  | true : IsValue ['t', 'r', 'u', 'e']
  | false : IsValue ['f', 'a', 'l', 's', 'e']
  | number {cs : List Char} (h : IsNumber cs) : IsValue cs
  | text {cs : List Char} (h : IsQuoted cs) : IsValue cs
  | list {items : List Padded} {close : List Char} (hclose : Blanks close)
    (h : ∀ p ∈ items, IsValue p.core) :
    IsValue ('[' :: (partsChars (items.map Padded.chars) close ++ [']']))
  | object {members : List (Padded × Padded)} {close : List Char} (hclose : Blanks close)
    (hnames : ∀ m ∈ members, IsQuoted m.1.core) (h : ∀ m ∈ members, IsValue m.2.core) :
    IsValue ('\x7b' :: (partsChars (members.map pairChars) close ++ ['\x7d']))

/-- The text of a document. -/
def IsDocument (cs : List Char) : Prop := ∃ p : Padded, IsValue p.core ∧ cs = p.chars

end Json
end CodeQuality
