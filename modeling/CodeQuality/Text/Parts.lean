/-!
# Parts between separators

A text is cut into parts at every separator, so that there is always one part more than there are
separators. `join` puts separators between parts again, and what `split` has cut, `join` restores.
-/

namespace CodeQuality
namespace Text

/-- The parts of a text between separators. -/
def split (separator : Char) : List Char → List (List Char)
  | [] => [[]]
  | c :: cs =>
    if c = separator then [] :: split separator cs
    else
      match split separator cs with
      | [] => [[c]]
      | part :: parts => (c :: part) :: parts

/-- Parts with separators between them. -/
def join (separator : Char) : List (List Char) → List Char
  | [] => []
  | [part] => part
  | part :: parts => part ++ separator :: join separator parts

theorem split_ne_nil (separator : Char) (cs : List Char) : split separator cs ≠ [] := by
  cases cs with
  | nil => simp [split]
  | cons c cs =>
    rw [split]
    split
    · simp
    · split <;> simp

theorem join_cons (separator : Char) (part : List Char) {parts : List (List Char)}
    (h : parts ≠ []) : join separator (part :: parts) = part ++ separator :: join separator parts := by
  cases parts with
  | nil => exact absurd rfl h
  | cons => rfl

theorem join_cons_cons (separator c : Char) (part : List Char) (parts : List (List Char)) :
    join separator ((c :: part) :: parts) = c :: join separator (part :: parts) := by
  cases parts <;> rfl

theorem join_split (separator : Char) (cs : List Char) : join separator (split separator cs) = cs := by
  induction cs with
  | nil => rfl
  | cons c cs ih =>
    have hne := split_ne_nil separator cs
    rw [split]
    split
    · next h => rw [join_cons separator [] hne, ih, h, List.nil_append]
    · match hs : split separator cs with
      | [] => exact absurd hs hne
      | part :: parts => rw [join_cons_cons, ← hs, ih]

end Text
end CodeQuality
