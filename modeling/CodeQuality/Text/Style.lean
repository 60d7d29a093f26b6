/-!
# Colours on a terminal

A text is painted by an escape sequence in front of it and a reset behind it. Painting is switched
on or off for a whole run; switched off, `paint` leaves the text alone. `unpaint` removes every
such sequence, so that painting can be stated to add nothing else.
-/

namespace CodeQuality

inductive Colour where
  | red
  | green
  | yellow
  | cyan
deriving DecidableEq, Repr

/-- How a text is shown: in a colour or not, bold or not. -/
structure Style where
  colour : Option Colour := none
  bold : Bool := false
deriving DecidableEq, Repr

namespace Colour

/-- The number of the colour in its escape sequence. -/
def code : Colour → String
  | red => "31"
  | green => "32"
  | yellow => "33"
  | cyan => "36"

end Colour

namespace Style

def red : Style := { colour := some .red }
def green : Style := { colour := some .green }
def yellow : Style := { colour := some .yellow }
def cyan : Style := { colour := some .cyan }
def emphatic : Style := { bold := true }

/-- The escape sequence with parameter `code`. -/
def escape (code : String) : String := "\x1b[" ++ code ++ "m"

/-- `s` in this style; the colour comes before the weight. -/
def paint (style : Style) (enabled : Bool) (s : String) : String :=
  if enabled then
    (match style.colour with
      | some c => escape c.code
      | none => "") ++
    (if style.bold then escape "1" else "") ++ s ++ escape "0"
  else s

/-- The text behind an escape sequence whose opening has been read: all up to its `m` is dropped. -/
def afterEscape : List Char → List Char
  | [] => []
  | c :: cs => if c = 'm' then cs else afterEscape cs

theorem length_afterEscape_le (cs : List Char) : (afterEscape cs).length ≤ cs.length := by
  induction cs with
  | nil => simp [afterEscape]
  | cons c cs ih =>
    rw [afterEscape]
    split
    · simp
    · simp only [List.length_cons]; omega

/-- `cs` without its escape sequences. -/
def unpaintChars : List Char → List Char
  | [] => []
  | c :: cs =>
    if c = '\x1b' then unpaintChars (afterEscape cs) else c :: unpaintChars cs
termination_by cs => cs.length
decreasing_by
  · have := length_afterEscape_le cs
    simp only [List.length_cons]; omega
  · simp

/-- `s` without its escape sequences. -/
def unpaint (s : String) : String := String.ofList (unpaintChars s.toList)

theorem paint_disabled (style : Style) (s : String) : style.paint false s = s := rfl

end Style
end CodeQuality
