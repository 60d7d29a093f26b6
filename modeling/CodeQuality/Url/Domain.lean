import CodeQuality.Text.Composed
import CodeQuality.Text.Octets
import CodeQuality.Text.Parts
import CodeQuality.Text.Ranges
import CodeQuality.Url.DomainTable
import CodeQuality.Url.Percent
import CodeQuality.Url.Punycode

/-!
# Domains

The name of a server in ASCII. Labels stand between points. Each character is replaced by what it
stands for, as a capital letter does for the small one, and the text is composed; then a label with
other than ASCII characters is written in Punycode behind `xn--`. Such a label has to be one in
which nothing is left to be replaced or composed, whether it is given as it is or in Punycode.
-/

namespace CodeQuality
namespace Domain

/-- The characters of ASCII that no domain holds; the ASCII form has no capital letters. -/
def isForbidden (c : Char) : Bool :=
  c.toNat ≤ 0x20 || c.isUpper || c.toNat = 0x7F || c = '%' || c = '#' || c = '/' || c = ':' || c = '<' ||
    c = '>' || c = '?' || c = '@' || c = '[' || c = '\\' || c = ']' || c = '^' || c = '|'

/-- What marks a label in Punycode. -/
def mark : List Char := ['x', 'n', '-', '-']

/-- The character that the one with number `n` stands for by a run. -/
def ofRun? (n : Nat) : Option Char :=
  mappedRuns.findSome? fun (first, last, stride, target) =>
    if first ≤ n && n ≤ last && (n - first) % stride = 0 then some (Char.ofNat (target + (n - first)))
    else none

/-- The text that the character with number `n` stands for. -/
def ofTexts? (n : Nat) : Option (List Char) :=
  mappedTexts.findSome? fun (first, texts) =>
    if first ≤ n then (Text.split ' ' texts.toList)[n - first]? else none

/-- What a character stands for. -/
def fold (c : Char) : List Char :=
  let n := c.toNat
  if n < 0x80 then [c.toLower]
  else if Text.inRanges droppedRanges c then []
  else
    match ofRun? n with
    | some d => [d]
    | none => (ofTexts? n).getD [c]

def isAscii (c : Char) : Bool := c.toNat < 0x80

/-! ### Labels -/

/-- The class of the marks that silence the vowel of a letter. -/
def silencer : Nat := 9

/-- Does the joiner or the mark that keeps letters from joining stand where it may? `front` is the
label before it, from the end. -/
def mayStand (front behind : List Char) (c : Char) : Bool :=
  let silenced : Bool := front.head?.any (Text.Composed.classOf · = silencer)
  let isMark (d : Char) : Bool := Text.inRanges markRanges d
  let joins (ranges : List (Nat × Nat)) (cs : List Char) : Bool :=
    (cs.dropWhile isMark).head?.any (Text.inRanges ranges)
  if c = '\u200D' then silenced
  else if c = '\u200C' then
    silenced || (joins joinsNextRanges front && joins joinsPreviousRanges behind)
  else true

/-- Do all joiners of a label stand where they may? `front` is what has been seen, from the end. -/
def joinersStand (front : List Char) : List Char → Bool
  | [] => true
  | c :: cs => mayStand front cs c && joinersStand (c :: front) cs

/-- The form of a text in which all characters stand for themselves. -/
def folded (cs : List Char) : List Char := Text.composed (cs.flatMap fold)

/-- May a label hold these characters in this order? They have to stand for themselves. -/
def isValidLabel (cs : List Char) : Bool :=
  folded cs = cs && !cs.any (Text.inRanges invalidRanges) &&
    !(cs.head?.any (Text.inRanges markRanges)) && joinersStand [] cs

/-- May a label in Punycode stand for `cs`? -/
def isEncodable (cs : List Char) : Bool :=
  cs.any (!isAscii ·) && isValidLabel cs && !mark.isPrefixOf cs && !cs.contains '.'

/-- A label of a domain: what it stands for, and its ASCII form. -/
structure Label where
  shown : List Char
  ascii : List Char

/-- The label that is written as `cs`, which has been folded. -/
def label? (cs : List Char) : Option Label :=
  if mark.isPrefixOf cs then
    match Punycode.decode (cs.drop 4) with
    | some shown =>
      if cs.all isAscii && isEncodable shown then some ⟨shown, cs⟩ else none
    | none => none
  else if cs.all isAscii then some ⟨cs, cs⟩
  else if isValidLabel cs then some ⟨cs, mark ++ Punycode.encode cs⟩
  else none

/-! ### Directions -/

/-- In which direction a character is written. -/
inductive Direction where
  | leftToRight
  | rightToLeft
  | digit
  | arabicDigit
  | neutral
deriving DecidableEq, Repr

/-- The direction of a character that is no mark. -/
def directionOf (c : Char) : Direction :=
  if Text.inRanges rightToLeftRanges c then .rightToLeft
  else if Text.inRanges arabicDigitRanges c then .arabicDigit
  else if Text.inRanges digitRanges c then .digit
  else if Text.inRanges neutralRanges c then .neutral
  else .leftToRight

/-- The directions in a label, where marks have that of what they belong to. -/
def directions (cs : List Char) : List Direction :=
  (cs.filter (!Text.inRanges markRanges ·)).map directionOf

/-- Is anything here written from right to left? -/
def goesLeft (ds : List Direction) : Bool := ds.contains .rightToLeft || ds.contains .arabicDigit

/-- Do the directions in a label go together? It runs in the direction of its first character, and
ends in a character of that direction or a digit. -/
def isOneWay (ds : List Direction) : Bool :=
  match ds.head?, ds.getLast? with
  | some .rightToLeft, some last =>
    !ds.contains .leftToRight && !(ds.contains .digit && ds.contains .arabicDigit) &&
      last ≠ .neutral
  | some .leftToRight, some last => !goesLeft ds && last ≠ .neutral
  | some _, _ => false
  | none, _ => true

/-- Do the directions in all labels go together? It matters only if anything goes left. -/
def areOneWay (labels : List Label) : Bool :=
  let ds := labels.map fun l => directions l.shown
  !ds.any goesLeft || ds.all isOneWay

/-! ### Domains -/

/-- The ASCII form of a domain. -/
def toAscii? (cs : List Char) : Option (List Char) := do
  let labels ← (Text.split '.' (folded cs)).mapM label?
  if !areOneWay labels || labels.any (·.ascii.any isForbidden) then none
  else some (Text.join '.' (labels.map Label.ascii))

/-- The domain that `octets` name. -/
def ofOctets? (octets : List UInt8) : Option (List Char) := do
  toAscii? (← Text.ofOctets? octets)

end Domain
end CodeQuality
