import CodeQuality.Proofs.Text.Painted
import CodeQuality.Proofs.Text.Spans
import CodeQuality.Table
import Mathlib.Data.List.Forall2
import Mathlib.Data.List.GetD

/-!
# Tables that correspond cell by cell

Two tables whose cells have as many lines as each other are drawn in the same way, apart from how
wide their columns are. So what relates the lines of their cells relates their texts, if it is kept
when texts are put together.

* `Table.Related` — tables whose cells are related line by line.
* `Table.Congruent.text` — how that carries over to their texts.
* `Table.mem_text` — a table shows all its cells.
-/

namespace CodeQuality

open Style (Plain)
open Text (columns)

namespace Table

/-! ### Lines of rows -/

/-- Line `k` of column `i`; it is empty where the cell or the row ends before. -/
def lineAt (row : List String) (i k : Nat) : String := (cellLines (row.getD i "")).getD k ""

/-- The number of lines of a row of `n` cells. -/
def height (n : Nat) (row : List String) : Nat :=
  ((List.range n).map fun i => (cellLines (row.getD i "")).length).foldl max 0

/-- Line `k` of a row of the table. -/
def rowLine (t : Table) (row : List String) (k : Nat) : String :=
  "│" ++ "┆".intercalate ((List.range t.columnCount).map fun i =>
    pad (t.columnWidth i) (lineAt row i k)) ++ "│"

theorem rowLines_widths (t : Table) (row : List String) :
    rowLines t.widths row =
      (List.range (height t.columnCount row)).map fun k => t.rowLine row k := by
  have hcolumns : t.widths.zipIdx =
      (List.range t.columnCount).map fun i => (t.columnWidth i, i) := by
    apply List.ext_getElem
    · simp [widths]
    · intro i h h'
      simp [widths]
  rw [rowLines, hcolumns]
  simp only [List.map_map]
  rfl

theorem init_le_foldl_max (ns : List Nat) (m : Nat) : m ≤ ns.foldl max m := by
  induction ns generalizing m with
  | nil => exact Nat.le_refl m
  | cons n ns ih => exact Nat.le_trans (Nat.le_max_left m n) (ih (max m n))

theorem le_foldl_max {ns : List Nat} {n : Nat} (h : n ∈ ns) (m : Nat) : n ≤ ns.foldl max m := by
  induction ns generalizing m with
  | nil => nomatch h
  | cons k ns ih =>
    rcases List.mem_cons.mp h with rfl | h
    · exact Nat.le_trans (Nat.le_max_right m n) (init_le_foldl_max ns (max m n))
    · exact ih h (max m k)

/-- A cell is as wide as any of its lines. -/
theorem columns_le_cellWidth (cell : String) (k : Nat) :
    columns ((cellLines cell).getD k "") ≤ cellWidth cell := by
  rw [List.getD_eq_getElem?_getD]
  cases hline : (cellLines cell)[k]? with
  | none => exact Nat.zero_le _
  | some line =>
    exact le_foldl_max (List.mem_map_of_mem (List.mem_of_getElem? hline)) 0

/-- A column is as wide as any of its lines. -/
theorem columns_le_columnWidth {t : Table} {row : List String} (h : row ∈ t.allRows) (i k : Nat) :
    columns (lineAt row i k) ≤ t.columnWidth i := by
  have hrow : (row[i]?.map cellWidth).getD 0 ≤ t.columnWidth i :=
    le_foldl_max (List.mem_map_of_mem (f := fun row => (row[i]?.map cellWidth).getD 0) h) 1
  refine Nat.le_trans ?_ hrow
  rw [lineAt, List.getD_eq_getElem?_getD (l := row)]
  cases row[i]? with
  | none => exact columns_le_cellWidth "" k
  | some cell => exact columns_le_cellWidth cell k

/-! ### Relations between tables -/

/-- A relation between texts that is kept when texts are put together. -/
structure Congruent (R : String → String → Prop) : Prop where
  plain : ∀ s, Plain s → R s s
  append : ∀ {p q p' q' : String}, R p q → R p' q' → R (p ++ p') (q ++ q')

/-- Are two cells related line by line? -/
def CellRelated (L : String → String → Prop) (cell cell' : String) : Prop :=
  List.Forall₂ L (cellLines cell) (cellLines cell')

/-- Are two tables related cell by cell? -/
structure Related (L : String → String → Prop) (t t' : Table) : Prop where
  empty : L "" ""
  header : Option.Rel (List.Forall₂ (CellRelated L)) t.header t'.header
  rows : List.Forall₂ (List.Forall₂ (CellRelated L)) t.rows t'.rows

section Congruent

variable {R L : String → String → Prop} {t t' : Table} {row row' : List String}

theorem Congruent.intercalate (hR : Congruent R) {s : String} (hs : Plain s) {ps qs : List String}
    (h : List.Forall₂ R ps qs) : R (s.intercalate ps) (s.intercalate qs) := by
  induction h with
  | nil =>
    rw [String.intercalate_nil]
    exact hR.plain "" (by decide)
  | cons hpq h ih =>
    cases h with
    | nil => simpa using hpq
    | cons hnext h =>
      rw [String.intercalate_cons_cons, String.intercalate_cons_cons]
      exact hR.append (hR.append hpq (hR.plain s hs)) ih

theorem forall₂_intersperse {α β : Type} {R : α → β → Prop} {as : List α} {bs : List β} {a : α}
    {b : β} (hsep : R a b) (h : List.Forall₂ R as bs) :
    List.Forall₂ R (as.intersperse a) (bs.intersperse b) := by
  induction h with
  | nil => exact .nil
  | cons hfirst h ih =>
    cases h with
    | nil => exact .cons hfirst .nil
    | cons hnext h => exact .cons hfirst (.cons hsep ih)

theorem forall₂_range {α : Type} {R : α → α → Prop} {f g : Nat → α} (n : Nat)
    (h : ∀ i < n, R (f i) (g i)) :
    List.Forall₂ R ((List.range n).map f) ((List.range n).map g) := by
  rw [List.forall₂_map_left_iff, List.forall₂_map_right_iff, List.forall₂_same]
  exact fun i hi => h i (List.mem_range.mp hi)

theorem Related.allRows (h : Related L t t') :
    List.Forall₂ (List.Forall₂ (CellRelated L)) t.allRows t'.allRows := by
  refine List.rel_append ?_ h.rows
  have hheader := h.header
  generalize t.header = header, t'.header = header' at hheader
  cases hheader with
  | none => exact .nil
  | some hrow => exact .cons hrow .nil

theorem Related.columnCount_eq (h : Related L t t') : t.columnCount = t'.columnCount := by
  have hlengths : List.Forall₂ (· = ·) (t.allRows.map List.length) (t'.allRows.map List.length) :=
    List.rel_map (fun _ _ hrow => hrow.length_eq) h.allRows
  rw [List.forall₂_eq_eq_eq] at hlengths
  rw [columnCount, columnCount, hlengths]

/-- Cells of the same column are related, also where the rows have ended. -/
theorem cellRelated_getD (hL : L "" "") (h : List.Forall₂ (CellRelated L) row row') (i : Nat) :
    CellRelated L (row.getD i "") (row'.getD i "") := by
  have hempty : CellRelated L "" "" := .cons hL .nil
  induction h generalizing i with
  | nil => exact hempty
  | cons hcell h ih =>
    cases i with
    | zero => exact hcell
    | succ i => exact ih i

theorem forall₂_getD {lines lines' : List String} (hL : L "" "") (h : List.Forall₂ L lines lines')
    (k : Nat) : L (lines.getD k "") (lines'.getD k "") := by
  induction h generalizing k with
  | nil => exact hL
  | cons hline h ih =>
    cases k with
    | zero => exact hline
    | succ k => exact ih k

theorem height_eq (hL : L "" "") (h : List.Forall₂ (CellRelated L) row row') (n : Nat) :
    height n row = height n row' := by
  have hlengths (i : Nat) : (cellLines (row.getD i "")).length =
      (cellLines (row'.getD i "")).length := (cellRelated_getD hL h i).length_eq
  simp only [height, hlengths]

/-- Rules are related if their parts are. -/
theorem Congruent.rule (hR : Congruent R) {stroke left cross right : String}
    (h : Related L t t') (hleft : Plain left) (hcross : Plain cross) (hright : Plain right)
    (hstroke : ∀ i < t.columnCount,
      R (times (t.columnWidth i + 2) stroke) (times (t'.columnWidth i + 2) stroke)) :
    R (rule t.widths left stroke cross right) (rule t'.widths left stroke cross right) := by
  have hparts : List.Forall₂ R (t.widths.map fun w => times (w + 2) stroke)
      (t'.widths.map fun w => times (w + 2) stroke) := by
    rw [widths, widths, ← h.columnCount_eq, List.map_map, List.map_map]
    exact forall₂_range _ hstroke
  exact hR.append (hR.append (hR.plain left hleft) (hR.intercalate hcross hparts))
    (hR.plain right hright)

/-- The lines of related rows are related if they are when they are filled up. -/
theorem Congruent.rowLines (hR : Congruent R) (h : Related L t t')
    (hpad : ∀ i < t.columnCount, ∀ l l', L l l' → columns l ≤ t.columnWidth i →
      R (pad (t.columnWidth i) l) (pad (t'.columnWidth i) l'))
    (hmem : row ∈ t.allRows) (hrow : List.Forall₂ (CellRelated L) row row') :
    List.Forall₂ R (rowLines t.widths row) (rowLines t'.widths row') := by
  rw [rowLines_widths, rowLines_widths, ← h.columnCount_eq, ← height_eq h.empty hrow]
  refine forall₂_range _ fun k _ => ?_
  rw [rowLine, rowLine, ← h.columnCount_eq]
  have hcells := forall₂_range t.columnCount fun i hi =>
    hpad i hi _ _ (forall₂_getD h.empty (cellRelated_getD h.empty hrow i) k)
      (columns_le_columnWidth hmem i k)
  exact hR.append (hR.append (hR.plain "│" (by decide)) (hR.intercalate (by decide) hcells))
    (hR.plain "│" (by decide))

/-- The texts of related tables are related if their strokes and filled up lines are. -/
theorem Congruent.text (hR : Congruent R) (h : Related L t t')
    (hpad : ∀ i < t.columnCount, ∀ l l', L l l' → columns l ≤ t.columnWidth i →
      R (pad (t.columnWidth i) l) (pad (t'.columnWidth i) l'))
    (hstroke : ∀ i < t.columnCount, ∀ stroke ∈ ["─", "═", "╌"],
      R (times (t.columnWidth i + 2) stroke) (times (t'.columnWidth i + 2) stroke)) :
    R t.text t'.text := by
  have hrule {stroke left cross right : String} (hmem : stroke ∈ ["─", "═", "╌"])
      (hleft : Plain left) (hcross : Plain cross) (hright : Plain right) :=
    hR.rule h hleft hcross hright fun i hi => hstroke i hi stroke hmem
  -- The rule on top, the header with the rule below it, the rows, the rule at the bottom.
  have hlines : List.Forall₂ R t.lines t'.lines := by
    refine List.rel_append (List.rel_append (List.rel_append ?_ ?_) ?_) ?_
    · exact .cons (hrule (by decide) (by decide) (by decide) (by decide)) .nil
    · have hheader := h.header
      have hmem : ∀ row ∈ t.header, row ∈ t.allRows := fun row hrow =>
        List.mem_append_left _ (Option.mem_toList.mpr hrow)
      generalize t.header = header, t'.header = header' at hheader hmem
      cases hheader with
      | none => exact .nil
      | some hrow =>
        exact List.rel_append (hR.rowLines h hpad (hmem _ rfl) hrow)
          (.cons (hrule (by decide) (by decide) (by decide) (by decide)) .nil)
    · refine List.rel_flatten (forall₂_intersperse ?_ ?_)
      · exact .cons (hrule (by decide) (by decide) (by decide) (by decide)) .nil
      · rw [List.forall₂_map_left_iff, List.forall₂_map_right_iff]
        have hmem : ∀ row ∈ t.rows, row ∈ t.allRows := fun row => List.mem_append_right _
        refine ((List.forall₂_and_left _ _).mpr ⟨hmem, h.rows⟩).imp fun row row' hrow => ?_
        exact hR.rowLines h hpad hrow.1 hrow.2
    · exact .cons (hrule (by decide) (by decide) (by decide) (by decide)) .nil
  exact hR.intercalate (by decide) hlines

end Congruent

/-! ### What a table shows -/

section Shown

variable {t : Table} {c : Char}

theorem mem_intercalate {s p : String} {ps : List String} (hp : p ∈ ps) (hc : c ∈ p.toList) :
    c ∈ (s.intercalate ps).toList := by
  induction ps with
  | nil => nomatch hp
  | cons first ps ih =>
    cases ps with
    | nil =>
      obtain rfl := List.mem_singleton.mp hp
      rwa [String.intercalate_singleton]
    | cons next ps =>
      rw [String.intercalate_cons_cons, String.toList_append, String.toList_append]
      rcases List.mem_cons.mp hp with rfl | hp
      · exact List.mem_append_left _ (List.mem_append_left _ hc)
      · exact List.mem_append_right _ (ih hp)

/-- Every character of a cell stands in one of its lines, but for line breaks. -/
theorem exists_lineAt {row : List String} {cell : String} (hcell : cell ∈ row)
    (hc : c ∈ cell.toList) (hbreak : c ≠ '\n') :
    ∃ i k, i < row.length ∧ k < (cellLines (row.getD i "")).length ∧
      c ∈ (lineAt row i k).toList := by
  obtain ⟨i, hi, rfl⟩ := List.mem_iff_getElem.mp hcell
  have hrow : row.getD i "" = row[i] := List.getD_eq_getElem row "" hi
  rw [← Text.join_split '\n' row[i].toList] at hc
  obtain rfl | ⟨part, hpart, hc⟩ := Text.mem_join hc
  · exact absurd rfl hbreak
  · obtain ⟨k, hk, rfl⟩ := List.mem_iff_getElem.mp hpart
    have hlines : k < (cellLines row[i]).length := by rwa [cellLines, List.length_map]
    refine ⟨i, k, hi, hrow.symm ▸ hlines, ?_⟩
    have hline : lineAt row i k = String.ofList (Text.split '\n' row[i].toList)[k] := by
      rw [lineAt, hrow, List.getD_eq_getElem _ "" hlines]
      exact List.getElem_map _
    rwa [hline, String.toList_ofList]

theorem length_le_columnCount {row : List String} (h : row ∈ t.allRows) :
    row.length ≤ t.columnCount :=
  le_foldl_max (List.mem_map_of_mem h) 0

theorem mem_intersperse {α : Type} {a : α} {as : List α} (h : a ∈ as) (separator : α) :
    a ∈ as.intersperse separator := by
  induction as with
  | nil => nomatch h
  | cons first as ih =>
    cases as with
    | nil => exact h
    | cons next as =>
      rcases List.mem_cons.mp h with rfl | h
      · exact List.mem_cons_self
      · exact List.mem_cons_of_mem _ (List.mem_cons_of_mem _ (ih h))

/-- The lines of a row are lines of the table. -/
theorem mem_lines {row : List String} {line : String} (hrow : row ∈ t.allRows)
    (h : line ∈ rowLines t.widths row) : line ∈ t.lines := by
  unfold lines
  rcases List.mem_append.mp hrow with hrow | hrow
  · rw [Option.mem_toList.mp hrow]
    refine List.mem_append_left _ (List.mem_append_left _ (List.mem_append_right _ ?_))
    exact List.mem_append_left _ h
  · refine List.mem_append_left _ (List.mem_append_right _ (List.mem_flatten.mpr ⟨_, ?_, h⟩))
    exact mem_intersperse (List.mem_map_of_mem hrow) _

/-- Every character of a row is shown, but for line breaks. -/
theorem mem_text {row : List String} {cell : String} (hrow : row ∈ t.allRows)
    (hcell : cell ∈ row) (hc : c ∈ cell.toList) (hbreak : c ≠ '\n') : c ∈ t.text.toList := by
  obtain ⟨i, k, hi, hk, hline⟩ := exists_lineAt hcell hc hbreak
  have hi : i ∈ List.range t.columnCount := by
    rw [List.mem_range]
    exact Nat.lt_of_lt_of_le hi (length_le_columnCount hrow)
  have hk : k < height t.columnCount row := by
    refine Nat.lt_of_lt_of_le hk (le_foldl_max ?_ 0)
    exact List.mem_map.mpr ⟨i, hi, rfl⟩
  have hpad : c ∈ (pad (t.columnWidth i) (lineAt row i k)).toList := by
    simp [pad, hline]
  have hshown : c ∈ (t.rowLine row k).toList := by
    rw [rowLine, String.toList_append, String.toList_append]
    refine List.mem_append_left _ (List.mem_append_right _ (mem_intercalate ?_ hpad))
    exact List.mem_map.mpr ⟨i, hi, rfl⟩
  refine mem_intercalate (mem_lines hrow ?_) hshown
  rw [rowLines_widths]
  exact List.mem_map.mpr ⟨k, List.mem_range.mpr hk, rfl⟩

end Shown

end Table
end CodeQuality
