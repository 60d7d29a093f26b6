/-!
# Blank characters

The characters that count as blank space in a text, and the three ways of trimming them: at the
front, at the end and on both sides. A text is `Blank` when nothing is left of it.
-/

namespace CodeQuality
namespace Text

/-- The characters with the Unicode property White_Space. -/
def isBlank (c : Char) : Bool :=
  let n := c.toNat
  (9 ≤ n && n ≤ 13) || n == 0x20 || n == 0x85 || n == 0xA0 || n == 0x1680 ||
    (0x2000 ≤ n && n ≤ 0x200A) || n == 0x2028 || n == 0x2029 || n == 0x202F || n == 0x205F ||
    n == 0x3000

/-- `cs` without its leading blanks. -/
def dropBlanks (cs : List Char) : List Char := cs.dropWhile isBlank

/-- `cs` without the characters at its end that satisfy `p`. -/
def dropEndWhile (p : Char → Bool) (cs : List Char) : List Char :=
  cs.foldr (fun c rest => if rest.isEmpty && p c then [] else c :: rest) []

/-- `s` without blanks at either end. -/
def trim (s : String) : String :=
  String.ofList (dropEndWhile isBlank (dropBlanks s.toList))

/-- `s` without the characters at its end that satisfy `p`. -/
def trimEndWhile (p : Char → Bool) (s : String) : String :=
  String.ofList (dropEndWhile p s.toList)

/-- `s` without the characters at its front that satisfy `p`. -/
def trimStartWhile (p : Char → Bool) (s : String) : String :=
  String.ofList (s.toList.dropWhile p)

/-- Does `s` begin with `start`? -/
def startsWith (start s : String) : Bool := start.toList.isPrefixOf s.toList

@[simp] theorem dropEndWhile_nil (p : Char → Bool) : dropEndWhile p [] = [] := rfl

theorem dropEndWhile_cons (p : Char → Bool) (c : Char) (cs : List Char) :
    dropEndWhile p (c :: cs) =
      if (dropEndWhile p cs).isEmpty && p c then [] else c :: dropEndWhile p cs := rfl

/-- Nothing is left of a text exactly when all of it may be dropped. -/
theorem dropEndWhile_eq_nil_iff {p : Char → Bool} {cs : List Char} :
    dropEndWhile p cs = [] ↔ ∀ c ∈ cs, p c = true := by
  induction cs with
  | nil => simp
  | cons c cs ih =>
    rw [dropEndWhile_cons]
    by_cases hcs : dropEndWhile p cs = []
    · have hall := ih.1 hcs
      by_cases hc : p c = true
      · simp [hcs, hc]; exact hall
      · simp [hcs, hc]
    · have hall := mt ih.2 hcs
      cases hd : dropEndWhile p cs with
      | nil => exact absurd hd hcs
      | cons d ds =>
        simp only [List.isEmpty_cons, Bool.false_and, Bool.false_eq_true, if_false,
          List.cons_ne_nil, false_iff]
        intro h
        exact hall fun x hx => h x (List.mem_cons_of_mem _ hx)

end Text
end CodeQuality
