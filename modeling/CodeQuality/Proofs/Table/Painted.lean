import CodeQuality.Proofs.Table.Related

/-!
# Painted tables

Escape sequences in a cell count as text when a table is drawn. So a painted table does not keep its
shape: when its escape sequences are removed, it says the same as the table that is not painted,
but it is that table only if there were none to remove. Either its columns have become wider, which
shows in the line on top, or else the painted lines have been filled up less than the others.

* `Table.sameInk_text` — what is left, apart from blanks and strokes.
* `Table.unpaint_text_iff` — when exactly the whole table is left.
-/

namespace CodeQuality

open Style (Plain Unpaints Tints)
open Text (columns)

namespace Table

/-! ### The line on top -/

section Top

variable {ws ws' : List Nat}

/-- The line on top of a table. -/
def topRule (ws : List Nat) : String := rule ws "┌" "─" "┬" "┐"

theorem toList_times_singleton (n : Nat) {s : String} {c : Char} (h : s.toList = [c]) :
    (times n s).toList = List.replicate n c := by
  rw [times, String.toList_join, List.flatMap_replicate, h]
  simp

theorem toList_topRule (ws : List Nat) : (topRule ws).toList =
    '┌' :: (Text.join '┬' (ws.map fun w => List.replicate (w + 2) '─') ++ ['┐']) := by
  have hparts : (ws.map fun w => times (w + 2) "─").map String.toList =
      ws.map fun w => List.replicate (w + 2) '─' := by
    rw [List.map_map]
    exact List.map_congr_left fun w _ => toList_times_singleton (w + 2) rfl
  rw [topRule, rule, String.toList_append, String.toList_append, String.toList_intercalate, hparts]
  show "┌".toList ++ ['┬'].intercalate _ ++ "┐".toList = _
  rw [Text.intercalate_eq_join]
  rfl

/-- The line on top shows the widths of the columns. -/
theorem topRule_injective (hlength : ws.length = ws'.length) (h : topRule ws = topRule ws') :
    ws = ws' := by
  by_cases hne : ws = []
  · rw [hne] at hlength ⊢
    exact (List.eq_nil_of_length_eq_zero hlength.symm).symm
  · have hne' : ws' ≠ [] := by
      rintro rfl
      exact hne (List.eq_nil_of_length_eq_zero hlength)
    have hchars := congrArg String.toList h
    rw [toList_topRule, toList_topRule, List.cons_inj_right, List.append_left_inj] at hchars
    have hcross (ws : List Nat) : ∀ part ∈ ws.map fun w => List.replicate (w + 2) '─',
        '┬' ∉ part := by
      simp [List.mem_replicate]
    have hparts := congrArg (Text.split '┬') hchars
    rw [Text.split_join (by simpa using hne) (hcross ws),
      Text.split_join (by simpa using hne') (hcross ws')] at hparts
    have hwidths := congrArg (List.map fun part => part.length - 2) hparts
    simpa [Function.comp_def] using hwidths

theorem mem_topRule {c : Char} (h : c ∈ (topRule ws).toList) : c ∈ ['┌', '─', '┬', '┐'] := by
  rw [toList_topRule, List.mem_cons, List.mem_append] at h
  rcases h with rfl | h | h
  · decide
  · obtain rfl | ⟨part, hpart, hc⟩ := Text.mem_join h
    · decide
    · obtain ⟨w, -, rfl⟩ := List.mem_map.mp hpart
      rw [List.eq_of_mem_replicate hc]
      decide
  · rw [List.mem_singleton.mp h]
    decide

/-- A text begins with the line on top of the table. -/
theorem text_eq_topRule (t : Table) : ∃ rest, t.text = topRule t.widths ++ "\n" ++ rest := by
  have hlines : ∃ later, later ≠ [] ∧ t.lines = topRule t.widths :: later :=
    ⟨_, List.append_ne_nil_of_right_ne_nil _ (List.cons_ne_nil _ []), rfl⟩
  obtain ⟨later, hlater, hlines⟩ := hlines
  exact ⟨_, by rw [text, hlines, String.intercalate_cons_of_ne_nil hlater]⟩

end Top

/-! ### Painted tables -/

section Painted

variable {t t' : Table}

/-- Is the character more than a blank or a stroke of a frame? -/
def inked (c : Char) : Bool := c ∉ [' ', '─', '═', '╌']

/-- Is `q` what is left of `p`, but for blanks and strokes? -/
def SameInk (p q : String) : Prop :=
  ∃ left, Unpaints p.toList left ∧ left.filter inked = q.toList.filter inked

theorem congruent_sameInk : Congruent SameInk where
  plain s h := ⟨s.toList, h.unpaints, rfl⟩
  append := by
    rintro p q p' q' ⟨left, hp, hink⟩ ⟨left', hp', hink'⟩
    refine ⟨left ++ left', ?_, ?_⟩
    · rw [String.toList_append]
      exact hp.append hp'
    · rw [String.toList_append, List.filter_append, List.filter_append, hink, hink']

/-- However often something without ink is repeated, there is no ink. -/
theorem sameInk_times (n n' : Nat) {s : String} {c : Char} (hs : s.toList = [c])
    (hplain : c ≠ '\x1b') (hink : inked c = false) : SameInk (times n s) (times n' s) := by
  have hnone (n : Nat) : (times n s).toList.filter inked = [] := by
    rw [toList_times_singleton n hs, List.filter_eq_nil_iff]
    intro d hd
    rw [List.eq_of_mem_replicate hd, hink]
    exact Bool.false_ne_true
  refine ⟨_, Plain.unpaints ?_, (hnone n).trans (hnone n').symm⟩
  intro hmem
  rw [toList_times_singleton n hs] at hmem
  exact hplain (List.eq_of_mem_replicate hmem).symm

theorem sameInk_pad {p q : String} (h : Tints p q) (width width' : Nat) :
    SameInk (pad width p) (pad width' q) := by
  have hblank : SameInk " " " " := congruent_sameInk.plain " " (by decide)
  have hline : SameInk p q := ⟨q.toList, h.unpaints, rfl⟩
  have hblanks := sameInk_times (width - columns p) (width' - columns q) (s := " ") rfl
    (by decide) (by decide)
  exact congruent_sameInk.append (congruent_sameInk.append (congruent_sameInk.append hblank hline)
    hblanks) hblank

/-- What is left of a painted table is the table that is not painted, but for blanks and strokes. -/
theorem sameInk_text (h : Related Tints t t') : SameInk t.text t'.text := by
  refine congruent_sameInk.text h (fun i _ l l' hline _ => sameInk_pad hline _ _) ?_
  intro i _ stroke hstroke
  simp only [List.mem_cons, List.not_mem_nil, or_false] at hstroke
  obtain rfl | rfl | rfl := hstroke <;> exact sameInk_times _ _ rfl (by decide) (by decide)

/-- Is what is left of `p` no longer than `q`, and shorter if there is a sequence in `p`? -/
def NoLonger (p q : String) : Prop :=
  ∃ left, Unpaints p.toList left ∧ left.length ≤ q.toList.length ∧
    (left.length = q.toList.length → Plain p)

theorem congruent_noLonger : Congruent NoLonger where
  plain s h := ⟨s.toList, h.unpaints, Nat.le_refl _, fun _ => h⟩
  append := by
    rintro p q p' q' ⟨left, hp, hle, heq⟩ ⟨left', hp', hle', heq'⟩
    refine ⟨left ++ left', ?_, ?_, ?_⟩
    · rw [String.toList_append]
      exact hp.append hp'
    · rw [String.toList_append, List.length_append, List.length_append]
      exact Nat.add_le_add hle hle'
    · intro h
      rw [String.toList_append, List.length_append, List.length_append] at h
      exact Style.plain_append.mpr ⟨heq (by omega), heq' (by omega)⟩

theorem not_mem_blanks (n : Nat) : '\x1b' ∉ List.replicate n ' ' := by
  intro h
  cases List.eq_of_mem_replicate h

theorem toList_pad (width : Nat) (line : String) : (pad width line).toList =
    [' '] ++ line.toList ++ List.replicate (width - columns line) ' ' ++ [' '] := by
  rw [pad, String.toList_append, String.toList_append, String.toList_append,
    toList_times_singleton _ (c := ' ') rfl]
  rfl

theorem plain_pad {line : String} (h : Plain line) (width : Nat) : Plain (pad width line) := by
  have hline : '\x1b' ∉ line.toList := h
  have hblanks := not_mem_blanks (width - columns line)
  unfold Plain
  rw [toList_pad]
  simp only [List.mem_append, not_or]
  exact ⟨⟨⟨by decide, hline⟩, hblanks⟩, by decide⟩

/-- In a column that is wide enough, a painted line is filled up less. -/
theorem noLonger_pad {p q : String} (h : Tints p q) {width : Nat} (hwidth : columns p ≤ width) :
    NoLonger (pad width p) (pad width q) := by
  have hle := h.columns_le
  refine ⟨[' '] ++ q.toList ++ List.replicate (width - columns p) ' ' ++ [' '], ?_, ?_, ?_⟩
  · have hblank : Unpaints [' '] [' '] := Style.unpaints_of_not_mem (by decide)
    rw [toList_pad]
    have hblanks : Unpaints (List.replicate (width - columns p) ' ') _ :=
      Style.unpaints_of_not_mem (not_mem_blanks _)
    exact ((hblank.append h.unpaints).append hblanks).append hblank
  · simp only [toList_pad, List.length_append, List.length_replicate]
    omega
  · intro heq
    simp only [toList_pad, List.length_append, List.length_replicate] at heq
    have hplain := h.plain_of_columns (by omega)
    exact plain_pad hplain width

theorem plain_of_mem_cellLines {cell line : String} (h : Plain cell)
    (hline : line ∈ cellLines cell) : Plain line := by
  intro hmem
  obtain ⟨part, hpart, rfl⟩ := List.mem_map.mp hline
  rw [String.toList_ofList] at hmem
  exact h (Text.mem_of_mem_split hpart hmem).1

/-- A cell of which nothing is painted is the same cell. -/
theorem cell_eq_of_plain {cell cell' : String} (h : CellRelated Tints cell cell')
    (hplain : Plain cell) : cell = cell' := by
  have hlines : List.Forall₂ (· = ·) (cellLines cell) (cellLines cell') :=
    ((List.forall₂_and_left _ _).mpr ⟨fun _ => plain_of_mem_cellLines hplain, h⟩).imp
      fun p q hpq => hpq.2.eq_of_plain hpq.1
  rw [List.forall₂_eq_eq_eq] at hlines
  have hparts : Text.split '\n' cell.toList = Text.split '\n' cell'.toList :=
    List.map_injective_iff.mpr (fun _ _ h => String.ofList_injective h) hlines
  apply String.toList_injective
  rw [← Text.join_split '\n' cell.toList, hparts, Text.join_split]

theorem row_eq_of_plain {row row' : List String} (h : List.Forall₂ (CellRelated Tints) row row')
    (hplain : ∀ cell ∈ row, Plain cell) : row = row' := by
  have hcells : List.Forall₂ (· = ·) row row' :=
    ((List.forall₂_and_left _ _).mpr ⟨hplain, h⟩).imp
      fun cell cell' hcell => cell_eq_of_plain hcell.2 hcell.1
  rwa [List.forall₂_eq_eq_eq] at hcells

/-- A table of which nothing is painted is the same table. -/
theorem eq_of_plain (h : Related Tints t t')
    (hplain : ∀ row ∈ t.allRows, ∀ cell ∈ row, Plain cell) : t = t' := by
  have hrows : List.Forall₂ (· = ·) t.rows t'.rows :=
    ((List.forall₂_and_left _ _).mpr
      ⟨fun row hrow => hplain row (List.mem_append_right _ hrow), h.rows⟩).imp
        fun row row' hrow => row_eq_of_plain hrow.2 hrow.1
  rw [List.forall₂_eq_eq_eq] at hrows
  have hheader : t.header = t'.header := by
    have hrow := h.header
    have hcells : ∀ row ∈ t.header, ∀ cell ∈ row, Plain cell := fun row hrow =>
      hplain row (List.mem_append_left _ (Option.mem_toList.mpr hrow))
    generalize t.header = header, t'.header = header' at hrow hcells
    cases hrow with
    | none => rfl
    | some hrow => exact congrArg some (row_eq_of_plain hrow (hcells _ rfl))
  calc t = ⟨t.header, t.rows⟩ := rfl
    _ = ⟨t'.header, t'.rows⟩ := by rw [hheader, hrows]

theorem plain_times (n : Nat) {s : String} (h : Plain s) : Plain (times n s) := by
  intro hmem
  rw [times, String.toList_join, List.mem_flatMap] at hmem
  obtain ⟨s', hs', hmem⟩ := hmem
  rw [List.eq_of_mem_replicate hs'] at hmem
  exact h hmem

theorem plain_stroke (n : Nat) : ∀ stroke ∈ ["─", "═", "╌"], Plain (times n stroke) := by
  have hplain : ∀ stroke ∈ ["─", "═", "╌"], Plain stroke := by decide
  exact fun stroke hstroke => plain_times n (hplain stroke hstroke)

/-- A table of plain cells is plain. -/
theorem plain_text (h : ∀ row ∈ t.allRows, ∀ cell ∈ row, Plain cell) : Plain t.text := by
  have hR : Congruent fun p _ => Plain p :=
    { plain := fun s hs => hs
      append := fun hp hp' => Style.plain_append.mpr ⟨hp, hp'⟩ }
  have hrow {row : List String} (hrow : row ∈ t.allRows) :
      List.Forall₂ (CellRelated fun p _ => Plain p) row row :=
    List.forall₂_same.mpr fun cell hcell => List.forall₂_same.mpr fun line hline =>
      plain_of_mem_cellLines (h row hrow cell hcell) hline
  have hrelated : Related (fun p _ => Plain p) t t := by
    refine ⟨by decide, ?_, List.forall₂_same.mpr fun row hmem =>
      hrow (List.mem_append_right _ hmem)⟩
    cases hheader : t.header with
    | none => exact .none
    | some header =>
      exact .some (hrow (List.mem_append_left _ (Option.mem_toList.mpr hheader)))
  exact hR.text hrelated (fun i _ l l' hline _ => plain_pad hline _) fun i _ => plain_stroke _

/-- If removing the escape sequences gives the same text, the columns are as wide. -/
theorem widths_eq_of_unpaint_text (h : Related Tints t t')
    (heq : Style.unpaint t.text = t'.text) : t.widths = t'.widths := by
  obtain ⟨rest, hrest⟩ := text_eq_topRule t
  obtain ⟨rest', hrest'⟩ := text_eq_topRule t'
  have hbreak (ws : List Nat) : '\n' ∉ (topRule ws).toList := fun hmem =>
    absurd (mem_topRule hmem) (by decide)
  have hplain : Plain (topRule t.widths ++ "\n") :=
    Style.plain_append.mpr ⟨fun hmem => absurd (mem_topRule hmem) (by decide), by decide⟩
  have hchars := congrArg String.toList heq
  rw [Style.unpaint, String.toList_ofList, hrest, String.toList_append, hplain.unpaints, hrest',
    String.toList_append, String.toList_append, String.toList_append] at hchars
  -- The lines on top are the texts up to the first line break, and they are not painted.
  have hlines := congrArg (Text.split '\n') hchars
  simp only [List.append_assoc] at hlines
  have hfront : (topRule t.widths).toList = (topRule t'.widths).toList := by
    have hlines := (Text.split_append (hbreak _) _).symm.trans
      (hlines.trans (Text.split_append (hbreak _) _))
    exact (List.cons.inj hlines).1
  refine topRule_injective ?_ (String.toList_injective hfront)
  rw [widths, widths, List.length_map, List.length_map, h.columnCount_eq]

/-- If removing the escape sequences gives the text of the table that is not painted, there are
none. -/
theorem plain_of_unpaint_text (h : Related Tints t t') (heq : Style.unpaint t.text = t'.text) :
    Plain t.text := by
  -- With columns of the same width, every painted line is shorter by what it was not filled up, and
  -- nothing makes up for that: so the texts are of the same length only if no line is painted.
  have hwidths := widths_eq_of_unpaint_text h heq
  have hwidth (i : Nat) (hi : i < t.columnCount) : t.columnWidth i = t'.columnWidth i := by
    rw [widths, widths, ← h.columnCount_eq] at hwidths
    exact List.map_inj_left.mp hwidths i (List.mem_range.mpr hi)
  obtain ⟨left, hleft, -, hplain⟩ := congruent_noLonger.text h
    (fun i hi l l' hline hle => hwidth i hi ▸ noLonger_pad hline hle)
    (fun i hi stroke hstroke =>
      hwidth i hi ▸ congruent_noLonger.plain _ (plain_stroke _ stroke hstroke))
  refine hplain ?_
  rw [← heq, hleft.unpaint_eq, String.toList_ofList]

/-- Removing the escape sequences of a painted table gives the table that is not painted exactly if
there are none. -/
theorem unpaint_text_iff (h : Related Tints t t') :
    Style.unpaint t.text = t'.text ↔ ∀ row ∈ t.allRows, ∀ cell ∈ row, Plain cell := by
  constructor
  · intro heq row hrow cell hcell hmem
    exact plain_of_unpaint_text h heq (mem_text hrow hcell hmem (by decide))
  · intro hplain
    rw [← eq_of_plain h hplain, (plain_text hplain).unpaints.unpaint_eq, String.ofList_toList]

end Painted

end Table
end CodeQuality
