import CodeQuality.Text.Blank
import CodeQuality.Text.Parts

/-!
# Where a text is cut

`takeWhile` and `dropWhile` cut a text where its characters stop satisfying a property. A text that
is put together of a span and of something that begins otherwise is cut right there. In the same
way `split` finds the parts again that `join` has put together, if none of them holds the
separator.
-/

namespace CodeQuality
namespace Text

section Spans

variable {α : Type} {p : α → Bool}

/-- What can be computed of each character holds of all of them. -/
theorem forall_of_all {P : α → Prop} [DecidablePred P] {cs : List α} (h : cs.all (P ·) = true) :
    ∀ c ∈ cs, P c :=
  fun c hc => of_decide_eq_true (List.all_eq_true.mp h c hc)

/-- The span is what is taken. -/
theorem takeWhile_append {cs rest : List α} (hcs : ∀ c ∈ cs, p c = true)
    (hrest : ∀ c ∈ rest.head?, p c = false) : (cs ++ rest).takeWhile p = cs := by
  rw [List.takeWhile_append_of_pos hcs]
  cases rest with
  | nil => exact List.append_nil cs
  | cons c rest => rw [List.takeWhile_cons, hrest c rfl]; exact List.append_nil cs

/-- What comes behind the span is what is left. -/
theorem dropWhile_append {cs rest : List α} (hcs : ∀ c ∈ cs, p c = true)
    (hrest : ∀ c ∈ rest.head?, p c = false) : (cs ++ rest).dropWhile p = rest := by
  rw [List.dropWhile_append_of_pos hcs]
  cases rest with
  | nil => rfl
  | cons c rest => rw [List.dropWhile_cons, hrest c rfl]; rfl

/-- A text that does not begin with what may be dropped is kept. -/
theorem dropWhile_eq_self {cs : List α} (h : ∀ c ∈ cs.head?, p c = false) :
    cs.dropWhile p = cs := by
  cases cs with
  | nil => rfl
  | cons c cs => rw [List.dropWhile_cons, h c rfl, if_neg Bool.false_ne_true]

end Spans

section End

variable {p : Char → Bool} {cs rest : List Char}

/-- Characters that are to be kept are kept, whatever is dropped behind them. -/
theorem dropEndWhile_append (h : ∀ c ∈ cs, p c = false) :
    dropEndWhile p (cs ++ rest) = cs ++ dropEndWhile p rest := by
  induction cs with
  | nil => rfl
  | cons c cs ih =>
    have hc := h c List.mem_cons_self
    have ih := ih fun d hd => h d (List.mem_cons_of_mem _ hd)
    rw [List.cons_append, dropEndWhile_cons, hc, Bool.and_false, if_neg Bool.false_ne_true, ih]
    rfl

/-- Only the end of a text is dropped. -/
theorem dropEndWhile_append_of_ne_nil (h : dropEndWhile p rest ≠ []) :
    dropEndWhile p (cs ++ rest) = cs ++ dropEndWhile p rest := by
  induction cs with
  | nil => rfl
  | cons c cs ih =>
    have hkept : (cs ++ dropEndWhile p rest).isEmpty = false := by simp [h]
    rw [List.cons_append, dropEndWhile_cons, ih, hkept, Bool.false_and, if_neg Bool.false_ne_true]
    rfl

/-- What may be dropped is dropped together with what stands before it. -/
theorem dropEndWhile_append_of_all (h : ∀ c ∈ rest, p c = true) :
    dropEndWhile p (cs ++ rest) = dropEndWhile p cs := by
  induction cs with
  | nil => exact dropEndWhile_eq_nil_iff.mpr h
  | cons c cs ih => rw [List.cons_append, dropEndWhile_cons, dropEndWhile_cons, ih]

end End

section Parts

variable {separator : Char} {part rest : List Char} {parts : List (List Char)}

theorem intercalate_eq_join (separator : Char) (parts : List (List Char)) :
    [separator].intercalate parts = join separator parts := by
  induction parts with
  | nil => rfl
  | cons part parts ih =>
    cases parts with
    | nil => simp [join, List.intercalate]
    | cons next parts =>
      rw [List.intercalate_cons_cons, ih, join_cons separator part (List.cons_ne_nil _ _)]
      simp

theorem split_cons_self (separator : Char) (cs : List Char) :
    split separator (separator :: cs) = [] :: split separator cs := by
  rw [split, if_pos rfl]

/-- A part goes up to the first separator. -/
theorem split_append (h : separator ∉ part) (rest : List Char) :
    split separator (part ++ separator :: rest) = part :: split separator rest := by
  induction part with
  | nil => exact split_cons_self separator rest
  | cons c part ih =>
    rw [List.mem_cons, not_or] at h
    rw [List.cons_append, split, if_neg (Ne.symm h.1), ih h.2]

/-- The parts in front of a separator and those behind it are all parts. -/
theorem split_append_cons (cs rest : List Char) :
    split separator (cs ++ separator :: rest) = split separator cs ++ split separator rest := by
  induction cs with
  | nil => exact split_cons_self separator rest
  | cons c cs ih =>
    rw [List.cons_append, split, split, ih]
    split
    · rfl
    · cases hs : split separator cs with
      | nil => exact absurd hs (split_ne_nil separator cs)
      | cons part parts => rfl

theorem split_eq_singleton (h : separator ∉ part) : split separator part = [part] := by
  induction part with
  | nil => rfl
  | cons c part ih =>
    rw [List.mem_cons, not_or] at h
    rw [split, if_neg (Ne.symm h.1), ih h.2]

/-- Parts without separators are found again. -/
theorem split_join (hne : parts ≠ []) (h : ∀ part ∈ parts, separator ∉ part) :
    split separator (join separator parts) = parts := by
  induction parts with
  | nil => exact absurd rfl hne
  | cons part parts ih =>
    have hpart := h part List.mem_cons_self
    cases hparts : parts with
    | nil => exact split_eq_singleton hpart
    | cons next later =>
      have ih := ih (by simp [hparts]) fun q hq => h q (List.mem_cons_of_mem _ hq)
      rw [join_cons separator part (by simp), split_append hpart, ← hparts, ih]

/-- What is put together consists of the parts and of separators. -/
theorem mem_join {c : Char} (h : c ∈ join separator parts) :
    c = separator ∨ ∃ part ∈ parts, c ∈ part := by
  induction parts with
  | nil => nomatch h
  | cons part parts ih =>
    cases hparts : parts with
    | nil =>
      rw [hparts] at h
      exact .inr ⟨part, List.mem_cons_self, h⟩
    | cons next later =>
      rw [join_cons separator part (by simp [hparts]), List.mem_append, List.mem_cons] at h
      rw [← hparts]
      rcases h with h | h | h
      · exact .inr ⟨part, List.mem_cons_self, h⟩
      · exact .inl h
      · rcases ih h with h | ⟨q, hq, hc⟩
        · exact .inl h
        · exact .inr ⟨q, List.mem_cons_of_mem _ hq, hc⟩

/-- The parts of a text hold only characters of it, and no separator. -/
theorem mem_of_mem_split {c : Char} {cs : List Char} (hpart : part ∈ split separator cs)
    (hc : c ∈ part) : c ∈ cs ∧ c ≠ separator := by
  induction cs generalizing part with
  | nil =>
    rw [split, List.mem_singleton] at hpart
    subst hpart
    cases hc
  | cons d cs ih =>
    rw [split] at hpart
    split at hpart
    · rcases List.mem_cons.mp hpart with rfl | hpart
      · cases hc
      · have := ih hpart hc
        exact ⟨List.mem_cons_of_mem _ this.1, this.2⟩
    · next hd =>
      split at hpart
      · next hs => exact absurd hs (split_ne_nil separator cs)
      · next first later hs =>
        rcases List.mem_cons.mp hpart with rfl | hpart
        · rcases List.mem_cons.mp hc with rfl | hc
          · exact ⟨List.mem_cons_self, hd⟩
          · have := ih (hs ▸ List.mem_cons_self) hc
            exact ⟨List.mem_cons_of_mem _ this.1, this.2⟩
        · have := ih (hs ▸ List.mem_cons_of_mem _ hpart) hc
          exact ⟨List.mem_cons_of_mem _ this.1, this.2⟩

end Parts

end Text
end CodeQuality
