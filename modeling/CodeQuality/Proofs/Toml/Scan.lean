import CodeQuality.Proofs.Steps
import CodeQuality.Proofs.Text.Spans
import CodeQuality.Toml.Reader

/-!
# The readers of characters of a document

What each of the small readers makes of a text that begins the way it expects, or the other way.
-/

namespace CodeQuality
namespace Toml
namespace Scan

variable {α : Type} {p : Char → Bool} {cs rest mark : List Char} {c : Char}

@[simp] theorem peek_apply (cs : List Char) : peek cs = some (cs.head?, cs) := rfl

@[simp] theorem next_cons (c : Char) (cs : List Char) : next (c :: cs) = some (c, cs) := rfl

@[simp] theorem get_apply (cs : List Char) : (get : Scan (List Char)) cs = some (cs, cs) := rfl

@[simp] theorem pure_apply (a : α) (cs : List Char) : (pure a : Scan α) cs = some (a, cs) := rfl

theorem discard_of {scan : Scan α} {a : α} (h : scan cs = some (a, rest)) :
    (discard scan : Scan Unit) cs = some ((), rest) := by
  show (scan cs).bind (fun r => some ((), r.2)) = some ((), rest)
  rw [h]
  rfl

/-! ### Given characters -/

theorem accept_append (mark rest : List Char) : accept mark (mark ++ rest) = some (true, rest) := by
  unfold accept
  rw [if_pos (by simp), List.drop_left]

theorem accept_cons (c : Char) (cs : List Char) : accept [c] (c :: cs) = some (true, cs) :=
  accept_append [c] cs

theorem accept_of_not (h : mark.isPrefixOf cs = false) : accept mark cs = some (false, cs) := by
  unfold accept
  rw [if_neg (by simp [h])]

theorem accept_of_ne (h : cs.head? ≠ some c) : accept (c :: mark) cs = some (false, cs) := by
  apply accept_of_not
  cases cs with
  | nil => rfl
  | cons c' cs =>
    have hne : (c == c') = false := beq_false_of_ne fun he => h (by rw [he]; rfl)
    rw [List.isPrefixOf_cons_cons, hne, Bool.false_and]

theorem word_append (mark rest : List Char) : word mark (mark ++ rest) = some ((), rest) := by
  unfold word
  rw [if_pos (by simp), List.drop_left]

theorem word_cons (c : Char) (cs : List Char) : word [c] (c :: cs) = some ((), cs) :=
  word_append [c] cs

/-! ### Spans -/

theorem span_append (hcs : ∀ c ∈ cs, p c = true) (hrest : ∀ c ∈ rest.head?, p c = false) :
    span p (cs ++ rest) = some (cs, rest) := by
  unfold span
  rw [Text.takeWhile_append hcs hrest, Text.dropWhile_append hcs hrest]

theorem spaces_of_not (h : ∀ c ∈ cs.head?, isSpace c = false) : spaces cs = some ((), cs) :=
  discard_of (show span isSpace ([] ++ cs) = some ([], cs) from
    span_append (fun _ hc => nomatch hc) h)

theorem spaces_single (h : ∀ c ∈ cs.head?, isSpace c = false) :
    spaces (' ' :: cs) = some ((), cs) :=
  discard_of (show span isSpace ([' '] ++ cs) = some ([' '], cs) from
    span_append (Text.forall_of_all (by decide)) h)

/-! ### Line breaks -/

@[simp] theorem acceptLineBreak_break (cs : List Char) :
    acceptLineBreak ('\n' :: cs) = some (true, cs) := rfl

theorem acceptLineBreak_of_ne (hn : cs.head? ≠ some '\n') (hr : cs.head? ≠ some '\r') :
    acceptLineBreak cs = some (false, cs) := by
  unfold acceptLineBreak
  split
  · simp at hn
  · simp at hr
  · rfl

/-- A line may end right away. -/
theorem lineTail_break (cs : List Char) : lineTail ('\n' :: cs) = some ((), cs) := by
  unfold lineTail
  rw [scan_bind (spaces_of_not (by simp [isSpace])), scan_bind (accept_of_ne (by simp))]
  rfl

end Scan
end Toml
end CodeQuality
