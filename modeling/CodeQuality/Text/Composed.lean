import CodeQuality.Text.ComposedTable

/-!
# The composed form of a text

One text may be written with marks behind letters or with letters that have their marks built in. In
its composed form every character is taken apart, marks that follow each other are put into the
order of their classes, and then whatever composes is composed.
-/

namespace CodeQuality
namespace Text
namespace Composed

/-- The class of a character; zero for all but marks. -/
def classOf (c : Char) : Nat :=
  ((classes.find? fun r => r.1 ≤ c.toNat && c.toNat ≤ r.2.1).map (·.2.2)).getD 0

/-! ### Hangul -/

def firstSyllable : Nat := 0xAC00
def firstLead : Nat := 0x1100
def firstVowel : Nat := 0x1161
/-- One before the first trailing consonant. -/
def noTrail : Nat := 0x11A7
def leadCount : Nat := 19
def vowelCount : Nat := 21
def trailCount : Nat := 28

/-- The parts of a syllable. -/
def syllableParts? (c : Char) : Option (List Char) :=
  let n := c.toNat - firstSyllable
  if c.toNat < firstSyllable || leadCount * vowelCount * trailCount ≤ n then none
  else
    let lead := Char.ofNat (firstLead + n / (vowelCount * trailCount))
    let vowel := Char.ofNat (firstVowel + n % (vowelCount * trailCount) / trailCount)
    let trail := n % trailCount
    some ([lead, vowel] ++ if trail = 0 then [] else [Char.ofNat (noTrail + trail)])

/-- The syllable that two characters compose to. -/
def syllable? (a b : Char) : Option Char :=
  let lead := a.toNat - firstLead
  let vowel := b.toNat - firstVowel
  let front := a.toNat - firstSyllable
  let trail := b.toNat - noTrail
  if firstLead ≤ a.toNat && lead < leadCount && firstVowel ≤ b.toNat && vowel < vowelCount then
    some (Char.ofNat (firstSyllable + (lead * vowelCount + vowel) * trailCount))
  else if firstSyllable ≤ a.toNat && front < leadCount * vowelCount * trailCount &&
      front % trailCount = 0 && noTrail < b.toNat && trail < trailCount then
    some (Char.ofNat (a.toNat + trail))
  else none

/-! ### Pairs -/

/-- The character that two characters compose to. -/
def compose? (a b : Char) : Option Char :=
  match syllable? a b with
  | some c => some c
  | none => do
    let firsts ← pairs.lookup b.toNat
    return Char.ofNat (← firsts.lookup a.toNat)

/-- The two characters that compose to `c`. -/
def parts? (c : Char) : Option (Char × Char) :=
  pairs.findSome? fun (b, firsts) =>
    (firsts.find? (·.2 = c.toNat)).map fun (a, _) => (Char.ofNat a, Char.ofNat b)

/-- A letter has at most this many marks built in. -/
def maxMarks : Nat := 4

/-- The characters that `c` is made of, which has at most `marks` marks built in. -/
def takeApart : (marks : Nat) → (c : Char) → List Char
  | 0, c => [c]
  | marks + 1, c =>
    match parts? c with
    | some (a, b) => takeApart marks a ++ [b]
    | none => [c]

/-- The characters that `c` is made of. -/
def decompose (c : Char) : List Char := (syllableParts? c).getD (takeApart maxMarks c)

/-! ### Texts -/

/-- Puts `c` behind a text that is given from its end; a mark passes marks of higher class. -/
def insertMark (c : Char) : List Char → List Char
  | [] => [c]
  | d :: ds =>
    if classOf c ≠ 0 && classOf c < classOf d then d :: insertMark c ds else c :: d :: ds

/-- A text with its marks in order. -/
def order (cs : List Char) : List Char := (cs.foldl (fun text c => insertMark c text) []).reverse

/-- How far composing has come. -/
structure State where
  /-- what cannot change any more, from its end -/
  done : List Char := []
  /-- the last character of class zero -/
  starter : Option Char := none
  /-- the marks behind it that did not compose, from the last one -/
  marks : List Char := []

namespace State

/-- All characters, from the last one. -/
def reversed (s : State) : List Char := s.marks ++ s.starter.toList ++ s.done

/-- Takes the next character without composing. -/
def push (s : State) (c : Char) : State :=
  if classOf c = 0 then { done := s.reversed, starter := some c } else { s with marks := c :: s.marks }

/-- May `c` compose with the starter? A mark of the same class or a higher one stands in its way. -/
def isFree (s : State) (c : Char) : Bool :=
  match s.marks.head? with
  | none => true
  | some d => classOf d < classOf c

/-- Takes the next character. -/
def step (s : State) (c : Char) : State :=
  match s.starter.bind (compose? · c) with
  | some d => if s.isFree c then { s with starter := some d } else s.push c
  | none => s.push c

end State

/-- A text with all composed that can be. -/
def join (cs : List Char) : List Char := (cs.foldl State.step {}).reversed.reverse

end Composed

/-- The composed form of a text. -/
def composed (cs : List Char) : List Char :=
  if cs.all (·.toNat < 0x80) then cs
  else Composed.join (Composed.order (cs.flatMap Composed.decompose))

end Text
end CodeQuality
