import CodeQuality.Text.Style

/-!
# What stands out in a report

The state of a quality gate is green, yellow or red, and a count of findings is red unless it is
zero. Which state a text names does not depend on the case of its letters; states that are not known
stay as they are.
-/

namespace CodeQuality
namespace Report

/-- The capitals for a character, as far as they are Latin letters without marks. All other
characters stand for themselves: their capitals, where they have some, occur in no word that is
looked for. -/
def capitals (c : Char) : List Char :=
  match c with
  | 'ı' => ['I']
  | 'ſ' => ['S']
  | 'ß' => ['S', 'S']
  | 'ﬀ' => ['F', 'F']
  | 'ﬁ' => ['F', 'I']
  | 'ﬂ' => ['F', 'L']
  | 'ﬃ' => ['F', 'F', 'I']
  | 'ﬄ' => ['F', 'F', 'L']
  | 'ﬅ' => ['S', 'T']
  | 'ﬆ' => ['S', 'T']
  | c => [c.toUpper]

/-- The style for the state of a quality gate, if the state is known. -/
def gateStyle? (status : String) : Option Style :=
  match String.ofList (status.toList.flatMap capitals) with
  | "OK" => some .green
  | "PASSED" => some .green
  | "WARN" => some .yellow
  | "ERROR" => some .red
  | "FAILED" => some .red
  | _ => none

/-- The state of a quality gate. -/
def gate (coloured : Bool) (status : String) : String :=
  match gateStyle? status with
  | some style => style.paint coloured status
  | none => status

/-- A count of findings. -/
def count (coloured : Bool) (n : UInt32) : String :=
  Style.red.paint (coloured && 0 < n) (toString n.toNat)

end Report
end CodeQuality
