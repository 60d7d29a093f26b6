import CodeQuality.Proofs.Text.Numeral
import CodeQuality.Proofs.Text.Spans
import CodeQuality.Text.Columns
import CodeQuality.Text.Style

/-!
# Painted texts

What is left of a painted text when its escape sequences are removed is the text itself. The
sequences take columns, though: they are counted like any other characters, so that a painted text
counts as wider than it is.

* `Style.Unpaints` — what is left of a text, whatever stands behind it.
* `Style.columns_lt_paint` — a painted text counts as wider.
* `Style.Tints` — a line with parts of it painted.
-/

namespace CodeQuality

/-! ### Columns of texts put together -/

namespace Text
namespace Columns

/-- A character that takes one column unless a selector stands behind it. -/
def Single (c : Char) : Prop := c.toNat ≤ 0xA0 ∧ c ≠ '\n' ∧ c ≠ '\r'

instance : DecidablePred Single := fun c =>
  inferInstanceAs (Decidable (c.toNat ≤ 0xA0 ∧ c ≠ '\n' ∧ c ≠ '\r'))

variable {cs rest : List Char} {c : Char}

theorem ofChars_cons (c : Char) (cs : List Char) :
    ofChars (c :: cs) =
      ((inFrontOf (ofChars cs).2 c).1 + (ofChars cs).1, (inFrontOf (ofChars cs).2 c).2) := rfl

theorem besides_single (h : Single c) (behind : Behind) : besides behind c = (1, .plain) := by
  obtain ⟨hle, hfeed, hreturn⟩ := h
  simp [besides, hle, hfeed, hreturn]

/-- Where nothing behind a text reaches into it, its columns do not depend on what stands behind. -/
theorem ofChars_append (hrest : (ofChars rest).2 = .plain) :
    ofChars (cs ++ rest) = ((ofChars cs).1 + (ofChars rest).1, (ofChars cs).2) := by
  induction cs with
  | nil => exact Prod.ext (Nat.zero_add _).symm hrest
  | cons c cs ih =>
    rw [List.cons_append, ofChars_cons, ofChars_cons, ih]
    simp only [Nat.add_assoc]

theorem ofChars_of_single (h : ∀ c ∈ cs, Single c) : ofChars cs = (cs.length, .plain) := by
  induction cs with
  | nil => rfl
  | cons c cs ih =>
    obtain ⟨hc, hcs⟩ := List.forall_mem_cons.mp h
    rw [ofChars_cons, ih hcs]
    show ((besides .plain c).1 + _, (besides .plain c).2) = _
    rw [besides_single hc, List.length_cons, Nat.add_comm]

/-- What ends in a letter that takes no selector stands on its own. -/
theorem ofChars_firm {cs : List Char} (hcs : ∀ c ∈ cs, Single c) (hc : Single c)
    (htakes : takesSelector c = false) (rest : List Char) :
    ofChars (cs ++ c :: rest) = (cs.length + 1 + (ofChars rest).1, .plain) := by
  have hlast : ofChars (c :: rest) = (1 + (ofChars rest).1, .plain) := by
    rw [ofChars_cons]
    unfold inFrontOf
    cases (ofChars rest).2 <;> simp [htakes, besides_single hc]
  rw [ofChars_append (by rw [hlast]), hlast, ofChars_of_single hcs]
  simp only [Nat.add_assoc]

end Columns
end Text

namespace Style

open Text (columns)
open Text.Columns (Single ofChars)

/-- No escape sequence is in the text. -/
def Plain (s : String) : Prop := '\x1b' ∉ s.toList

instance : DecidablePred Plain := fun s => inferInstanceAs (Decidable ('\x1b' ∉ s.toList))

theorem plain_append {s t : String} : Plain (s ++ t) ↔ Plain s ∧ Plain t := by
  unfold Plain
  rw [String.toList_append, List.mem_append, not_or]

theorem isDigit_of_mem_toString {n : Nat} {c : Char} (h : c ∈ (toString n).toList) :
    c.isDigit = true := by
  have hchars : (toString n).toList = Text.numeral n := Nat.toList_repr
  rw [hchars] at h
  exact Text.isDigit_of_mem_numeral h

theorem single_of_isDigit {c : Char} (h : c.isDigit = true) : Single c := by
  have hrange : 48 ≤ c.toNat ∧ c.toNat ≤ 57 := by
    rw [Char.isDigit, Bool.and_eq_true, decide_eq_true_iff, decide_eq_true_iff] at h
    exact h
  refine ⟨by omega, ?_, ?_⟩
  · rintro rfl
    exact absurd hrange (by decide)
  · rintro rfl
    exact absurd hrange (by decide)

theorem plain_numeral (n : Nat) : Plain (toString n) := fun h =>
  absurd (isDigit_of_mem_toString h) (by decide)

/-! ### Removing the sequences -/

/-- Is `q` what is left of `p` without its escape sequences, whatever stands behind it? -/
def Unpaints (p q : List Char) : Prop :=
  ∀ rest, unpaintChars (p ++ rest) = q ++ unpaintChars rest

theorem Unpaints.append {p q p' q' : List Char} (h : Unpaints p q) (h' : Unpaints p' q') :
    Unpaints (p ++ p') (q ++ q') := by
  intro rest
  rw [List.append_assoc, h, h', List.append_assoc]

theorem Unpaints.unpaint_eq {p : String} {q : List Char} (h : Unpaints p.toList q) :
    unpaint p = String.ofList q := by
  have hchars := h []
  rw [List.append_nil, unpaintChars, List.append_nil] at hchars
  rw [unpaint, hchars]

theorem unpaints_of_not_mem {cs : List Char} (h : '\x1b' ∉ cs) : Unpaints cs cs := by
  intro rest
  induction cs with
  | nil => rfl
  | cons c cs ih =>
    rw [List.mem_cons, not_or] at h
    rw [List.cons_append, unpaintChars, if_neg (Ne.symm h.1), ih h.2, List.cons_append]

theorem Plain.unpaints {s : String} (h : Plain s) : Unpaints s.toList s.toList :=
  unpaints_of_not_mem h

theorem afterEscape_append {cs : List Char} (h : 'm' ∉ cs) (rest : List Char) :
    afterEscape (cs ++ 'm' :: rest) = rest := by
  induction cs with
  | nil => rw [List.nil_append, afterEscape, if_pos rfl]
  | cons c cs ih =>
    rw [List.mem_cons, not_or] at h
    rw [List.cons_append, afterEscape, if_neg (Ne.symm h.1), ih h.2]

theorem toList_escape (code : String) :
    (escape code).toList = '\x1b' :: '[' :: (code.toList ++ ['m']) := by
  rw [escape, String.toList_append, String.toList_append]
  rfl

theorem unpaints_escape {code : String} (h : 'm' ∉ code.toList) :
    Unpaints (escape code).toList [] := by
  intro rest
  have hskip : '[' :: (code.toList ++ ['m']) ++ rest = ('[' :: code.toList) ++ 'm' :: rest := by
    simp
  rw [toList_escape, List.cons_append, unpaintChars, if_pos rfl, hskip, afterEscape_append]
  · rfl
  · simpa using h

/-! ### Painting -/

/-- What stands in front of a painted text. -/
def opening (style : Style) : String :=
  (match style.colour with
    | some c => escape c.code
    | none => "") ++
  (if style.bold then escape "1" else "")

theorem paint_enabled (style : Style) (s : String) :
    style.paint true s = style.opening ++ s ++ escape "0" := rfl

theorem unpaints_opening (style : Style) : Unpaints style.opening.toList [] := by
  have hcolour : Unpaints (match style.colour with
      | some c => escape c.code
      | none => "").toList [] := by
    cases style.colour with
    | none => exact unpaints_of_not_mem (List.not_mem_nil)
    | some c => exact unpaints_escape (by cases c <;> decide)
  have hbold : Unpaints (if style.bold then escape "1" else "").toList [] := by
    cases style.bold with
    | false => exact unpaints_of_not_mem (List.not_mem_nil)
    | true => exact unpaints_escape (by decide)
  rw [opening, String.toList_append]
  exact hcolour.append hbold

theorem single_opening (style : Style) : ∀ c ∈ style.opening.toList, Single c := by
  obtain ⟨colour, bold⟩ := style
  apply Text.forall_of_all
  rcases colour with _ | _ | _ | _ | _ <;> cases bold <;> decide

/-- A text that is painted has no more lines than before. -/
theorem not_mem_paint (style : Style) {s : String} (h : '\n' ∉ s.toList) :
    '\n' ∉ (style.paint true s).toList := by
  intro hmem
  rw [paint_enabled, String.toList_append, String.toList_append, List.mem_append,
    List.mem_append] at hmem
  rcases hmem with (hmem | hmem) | hmem
  · exact absurd (single_opening style _ hmem) (by decide)
  · exact h hmem
  · exact absurd hmem (by decide)

/-- A plain text that is painted is left over when the sequences are removed. -/
theorem unpaints_paint (style : Style) (enabled : Bool) {s : String} (h : Plain s) :
    Unpaints (style.paint enabled s).toList s.toList := by
  cases enabled with
  | false => exact h.unpaints
  | true =>
    have hreset : Unpaints (escape "0").toList [] := unpaints_escape (by decide)
    have hpaint := ((unpaints_opening style).append h.unpaints).append hreset
    rwa [List.nil_append, List.append_nil, ← String.toList_append, ← String.toList_append] at hpaint

theorem not_plain_paint (style : Style) (s : String) : ¬ Plain (style.paint true s) := by
  intro h
  exact absurd (plain_append.mp h).2 (by decide)

/-! ### Columns of painted texts -/

/-- An escape sequence takes as many columns as it has characters. -/
theorem ofChars_escape {code : String} (hcode : ∀ c ∈ code.toList, Single c) (rest : List Char) :
    (ofChars ((escape code).toList ++ rest)).1 = code.toList.length + 3 + (ofChars rest).1 := by
  have hfront : ∀ c ∈ '\x1b' :: '[' :: code.toList, Single c :=
    List.forall_mem_cons.mpr ⟨by decide, List.forall_mem_cons.mpr ⟨by decide, hcode⟩⟩
  have hchars : (escape code).toList ++ rest = '\x1b' :: '[' :: code.toList ++ 'm' :: rest := by
    rw [toList_escape]
    simp
  rw [hchars, Text.Columns.ofChars_firm hfront (by decide) (by decide)]
  rfl

theorem ofChars_le_opening (style : Style) (rest : List Char) :
    (ofChars rest).1 ≤ (ofChars (style.opening.toList ++ rest)).1 := by
  have hbold : (ofChars rest).1 ≤
      (ofChars ((if style.bold then escape "1" else "").toList ++ rest)).1 := by
    cases style.bold with
    | false => exact Nat.le_refl _
    | true =>
      show _ ≤ (ofChars ((escape "1").toList ++ rest)).1
      rw [ofChars_escape (Text.forall_of_all (by decide))]
      exact Nat.le_add_left _ _
  rw [opening, String.toList_append, List.append_assoc]
  refine Nat.le_trans hbold ?_
  cases style.colour with
  | none => exact Nat.le_refl _
  | some c =>
    show _ ≤ (ofChars ((escape c.code).toList ++ _)).1
    rw [ofChars_escape (Text.forall_of_all (by cases c <;> decide))]
    exact Nat.le_add_left _ _

/-- A painted text counts as wider, whatever it is and however it is painted. -/
theorem columns_lt_paint (style : Style) (s : String) :
    columns s < columns (style.paint true s) := by
  have hreset : ofChars (s.toList ++ (escape "0").toList) = (columns s + 4, (ofChars s.toList).2) :=
    Text.Columns.ofChars_append (by decide)
  have hopening := ofChars_le_opening style (s.toList ++ (escape "0").toList)
  rw [hreset, ← List.append_assoc, ← String.toList_append, ← String.toList_append] at hopening
  exact Nat.lt_of_lt_of_le (by omega) hopening

/-! ### Lines -/

/-- Is `p` the line `q` with parts of it painted? If nothing is, `p` counts as no wider. -/
structure Tints (p q : String) : Prop where
  unpaints : Unpaints p.toList q.toList
  columns_le : columns q ≤ columns p
  plain_of_columns : columns p = columns q → Plain p

/-- A line of which nothing is painted. -/
theorem Tints.refl {s : String} (h : Plain s) : Tints s s :=
  ⟨h.unpaints, Nat.le_refl _, fun _ => h⟩

/-- If no part of it is painted, it is the same line. -/
theorem Tints.eq_of_plain {p q : String} (h : Tints p q) (hp : Plain p) : p = q := by
  have hback : String.ofList p.toList = String.ofList q.toList :=
    hp.unpaints.unpaint_eq.symm.trans h.unpaints.unpaint_eq
  rwa [String.ofList_toList, String.ofList_toList] at hback

/-- A line that is painted as a whole. -/
theorem tints_paint (style : Style) {s : String} (h : Plain s) : Tints (style.paint true s) s := by
  have hlt := columns_lt_paint style s
  exact ⟨unpaints_paint style true h, Nat.le_of_lt hlt, fun heq => absurd heq (Nat.ne_of_gt hlt)⟩

/-- Is `p` the text `q` with parts of it painted, and do all characters take one column each? -/
structure TintsEvenly (p q : String) : Prop where
  unpaints : Unpaints p.toList q.toList
  single : ∀ c ∈ p.toList ++ q.toList, Single c
  length_le : q.toList.length ≤ p.toList.length
  plain_of_length : p.toList.length = q.toList.length → Plain p

namespace TintsEvenly

variable {p q p' q' : String}

theorem append (h : TintsEvenly p q) (h' : TintsEvenly p' q') :
    TintsEvenly (p ++ p') (q ++ q') := by
  have hle := h.length_le
  have hle' := h'.length_le
  constructor
  · rw [String.toList_append, String.toList_append]
    exact h.unpaints.append h'.unpaints
  · have hsingle := h.single
    have hsingle' := h'.single
    simp only [String.toList_append, List.forall_mem_append] at hsingle hsingle' ⊢
    exact ⟨⟨hsingle.1, hsingle'.1⟩, ⟨hsingle.2, hsingle'.2⟩⟩
  · rw [String.toList_append, String.toList_append, List.length_append, List.length_append]
    exact Nat.add_le_add hle hle'
  · intro heq
    rw [String.toList_append, String.toList_append, List.length_append, List.length_append] at heq
    exact plain_append.mpr ⟨h.plain_of_length (by omega), h'.plain_of_length (by omega)⟩

theorem refl {s : String} (hplain : Plain s) (h : ∀ c ∈ s.toList, Single c) : TintsEvenly s s :=
  ⟨hplain.unpaints, List.forall_mem_append.mpr ⟨h, h⟩, Nat.le_refl _, fun _ => hplain⟩

theorem tints (h : TintsEvenly p q) : Tints p q := by
  obtain ⟨hp, hq⟩ := List.forall_mem_append.mp h.single
  have hcolumns {s : String} (hs : ∀ c ∈ s.toList, Single c) : columns s = s.toList.length := by
    rw [columns, Text.Columns.ofChars_of_single hs]
  refine ⟨h.unpaints, ?_, ?_⟩
  · rw [hcolumns hp, hcolumns hq]
    exact h.length_le
  · rw [hcolumns hp, hcolumns hq]
    exact h.plain_of_length

theorem paint (style : Style) {s : String} (hplain : Plain s) (h : ∀ c ∈ s.toList, Single c) :
    TintsEvenly (style.paint true s) s := by
  have hlength : (style.paint true s).toList.length =
      style.opening.toList.length + s.toList.length + 4 := by
    rw [paint_enabled, String.toList_append, String.toList_append, List.length_append,
      List.length_append]
    rfl
  refine ⟨unpaints_paint style true hplain, ?_, by omega, fun heq => by omega⟩
  simp only [paint_enabled, String.toList_append, List.forall_mem_append]
  exact ⟨⟨⟨single_opening style, h⟩, Text.forall_of_all (by decide)⟩, h⟩

end TintsEvenly

end Style
end CodeQuality
