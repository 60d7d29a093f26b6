import CodeQuality.Text.Composed

/-!
# Characters that stay in a composed text

Composing a text takes its characters apart, puts marks into another order, and replaces pairs of
characters. A character that is in no such pair, and is made of no others, is found again.

* `Composed.IsInert` — the characters to which nothing happens.
* `Composed.isInert_of_unlisted` — how the tables tell them.
* `mem_composed` — they stay in a text.
-/

namespace CodeQuality
namespace Text
namespace Composed

variable {c d : Char} {cs : List Char} {s : State}

/-- Is `c` made of no other characters, and does it compose with none? -/
structure IsInert (c : Char) : Prop where
  apart : decompose c = [c]
  first : ∀ d, compose? c d = none
  second : ∀ d, compose? d c = none

/-! ### The tables -/

section Unlisted

variable (hhangul : c.toNat < 0x1100 ∨ 0x11FF < c.toNat ∧ c.toNat < 0xAC00)
include hhangul

theorem syllable?_first (d : Char) : syllable? c d = none := by
  unfold syllable? firstLead firstSyllable leadCount
  dsimp only
  rw [if_neg (by simp; omega), if_neg (by simp; omega)]

theorem syllable?_second (d : Char) : syllable? d c = none := by
  unfold syllable? firstVowel vowelCount noTrail trailCount
  dsimp only
  rw [if_neg (by simp; omega), if_neg (by simp; omega)]

theorem syllableParts?_eq_none : syllableParts? c = none := by
  unfold syllableParts? firstSyllable
  dsimp only
  rw [if_pos (by simp; omega)]

/-- A character that is neither listed nor part of Hangul is inert. -/
theorem isInert_of_unlisted (hpairs : ∀ entry ∈ pairs, entry.1 ≠ c.toNat ∧
    ∀ pair ∈ entry.2, pair.1 ≠ c.toNat ∧ pair.2 ≠ c.toNat) : IsInert c := by
  refine ⟨?_, fun d => ?_, fun d => ?_⟩
  · have hparts : parts? c = none := by
      refine List.findSome?_eq_none_iff.mpr fun entry hentry => Option.map_eq_none_iff.mpr ?_
      refine List.find?_eq_none.mpr fun pair hpair => ?_
      simpa using ((hpairs entry hentry).2 pair hpair).2
    rw [decompose, syllableParts?_eq_none hhangul, Option.getD_none, maxMarks, takeApart, hparts]
  · rw [compose?, syllable?_first hhangul]
    cases hfirsts : pairs.lookup d.toNat with
    | none => rfl
    | some firsts =>
      obtain ⟨front, later, hpair, -⟩ := List.lookup_eq_some_iff.mp hfirsts
      have hentry : (d.toNat, firsts) ∈ pairs := by rw [hpair]; simp
      have hnone : firsts.lookup c.toNat = none := List.lookup_eq_none_iff.mpr fun pair hp =>
        bne_iff_ne.mpr (Ne.symm ((hpairs _ hentry).2 pair hp).1)
      simp [hnone]
  · have hnone : pairs.lookup c.toNat = none := List.lookup_eq_none_iff.mpr fun entry hentry =>
      bne_iff_ne.mpr (Ne.symm (hpairs entry hentry).1)
    rw [compose?, syllable?_second hhangul, hnone]
    rfl

end Unlisted

/-! ### Order -/

theorem mem_insertMark : d ∈ insertMark c cs ↔ d = c ∨ d ∈ cs := by
  induction cs with
  | nil => rw [insertMark, List.mem_singleton]; simp
  | cons e cs ih =>
    rw [insertMark]
    split
    · rw [List.mem_cons, List.mem_cons, ih]
      exact or_left_comm
    · exact List.mem_cons

theorem mem_foldl_insertMark {text : List Char} (hc : c ∈ text ∨ c ∈ cs) :
    c ∈ cs.foldl (fun text c => insertMark c text) text := by
  induction cs generalizing text with
  | nil => exact hc.resolve_right nofun
  | cons d cs ih =>
    refine ih ?_
    rw [mem_insertMark]
    rcases hc with hc | hc
    · exact .inl (.inr hc)
    · exact (List.mem_cons.mp hc).imp .inl id

/-- Putting marks into order loses nothing. -/
theorem mem_order (h : c ∈ cs) : c ∈ order cs :=
  List.mem_reverse.mpr (mem_foldl_insertMark (.inr h))

/-! ### Composing -/

theorem mem_reversed_push : d ∈ (s.push c).reversed ↔ d = c ∨ d ∈ s.reversed := by
  unfold State.push State.reversed
  split <;> simp

/-- An inert character that has been taken stays. -/
theorem mem_reversed_step (h : IsInert c) (hc : c ∈ s.reversed) (d : Char) :
    c ∈ (s.step d).reversed := by
  unfold State.step
  split
  · next e hcomposed =>
    split
    · obtain ⟨starter, hstarter, hcomposed⟩ := Option.bind_eq_some_iff.mp hcomposed
      have hne : c ≠ starter := by
        rintro rfl
        rw [h.first d] at hcomposed
        nomatch hcomposed
      simp only [State.reversed, hstarter, Option.toList_some, List.mem_append,
        List.mem_singleton] at hc ⊢
      exact hc.imp_left fun hc => .inl (hc.resolve_right hne)
    · exact mem_reversed_push.mpr (.inr hc)
  · exact mem_reversed_push.mpr (.inr hc)

theorem mem_reversed_step_self (h : IsInert c) (s : State) : c ∈ (s.step c).reversed := by
  have hnone : s.starter.bind (compose? · c) = none := by
    cases s.starter with
    | none => rfl
    | some starter => exact h.second starter
  rw [State.step, hnone]
  exact mem_reversed_push.mpr (.inl rfl)

theorem mem_foldl_step (h : IsInert c) (hc : c ∈ s.reversed ∨ c ∈ cs) :
    c ∈ (cs.foldl State.step s).reversed := by
  induction cs generalizing s with
  | nil => exact hc.resolve_right nofun
  | cons d cs ih =>
    refine ih ?_
    rcases hc with hc | hc
    · exact .inl (mem_reversed_step h hc d)
    rcases List.mem_cons.mp hc with rfl | hc
    · exact .inl (mem_reversed_step_self h s)
    · exact .inr hc

/-- Composing loses no inert character. -/
theorem mem_join (h : IsInert c) (hc : c ∈ cs) : c ∈ join cs :=
  List.mem_reverse.mpr (mem_foldl_step h (.inr hc))

end Composed

/-- An inert character stays in a text. -/
theorem mem_composed {c : Char} {cs : List Char} (h : Composed.IsInert c) (hc : c ∈ cs) :
    c ∈ composed cs := by
  unfold composed
  split
  · exact hc
  · refine Composed.mem_join h (Composed.mem_order (List.mem_flatMap.mpr ⟨c, hc, ?_⟩))
    rw [h.apart]
    exact List.mem_singleton_self c

end Text
end CodeQuality
