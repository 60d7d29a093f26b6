import CodeQuality.Proofs.Table.Painted
import CodeQuality.Report.BranchListing
import CodeQuality.Report.MeasureListing

/-!
# Painted reports

A report is painted in the cells of its tables: a known state of a quality gate as a whole, and in
findings the numbers of bugs and of vulnerabilities. Each of these cells is a single line. All the
other cells are the same with colours and without.

* `BranchLike.standsOut`, `Measure.standsOut` — what is painted.
* `Report.Decorates` — what painting does to a report.
* `Report.decorates_branches`, `Report.decorates_measures`, `Report.decorates_measuresAndMeta`,
  `Report.decorates_projectMeasures` — the reports, one by one.
-/

namespace CodeQuality

open Style (Plain Unpaints Tints TintsEvenly unpaint)
open Text.Columns (Single)
open Table (CellRelated Related inked)

namespace Report

/-! ### Painted cells -/

/-- A cell of a single line. -/
theorem cellRelated_of_line {L : String → String → Prop} {p q : String} (h : L p q)
    (hp : '\n' ∉ p.toList) (hq : '\n' ∉ q.toList) : CellRelated L p q := by
  have hlines {s : String} (hs : '\n' ∉ s.toList) : Table.cellLines s = [s] := by
    rw [Table.cellLines, Text.split_eq_singleton hs, List.map_singleton, String.ofList_toList]
  unfold CellRelated
  rw [hlines hp, hlines hq]
  exact .cons h .nil

theorem cellRelated_of_plain {s : String} (h : Plain s) : CellRelated Tints s s :=
  List.forall₂_same.mpr fun _ hline => .refl (Table.plain_of_mem_cellLines h hline)

theorem cellRelated_of_even {p q : String} (h : TintsEvenly p q) : CellRelated Tints p q := by
  obtain ⟨hp, hq⟩ := List.forall_mem_append.mp h.single
  have hbreak {cs : List Char} (hcs : ∀ c ∈ cs, Single c) : '\n' ∉ cs := fun hmem =>
    absurd (hcs _ hmem) (by decide)
  exact cellRelated_of_line h.tints (hbreak hp) (hbreak hq)

/-- The state of a quality gate that is known is a word. -/
theorem not_mem_of_gateStyle? {status : String} {style : Style}
    (h : gateStyle? status = some style) : '\n' ∉ status.toList := by
  intro hmem
  have hcapital : '\n' ∈ (String.ofList (status.toList.flatMap capitals)).toList := by
    rw [String.toList_ofList]
    exact List.mem_flatMap.mpr ⟨'\n', hmem, by decide⟩
  unfold gateStyle? at h
  split at h
  case h_6 => cases h
  all_goals
    next hword =>
    rw [hword] at hcapital
    exact absurd hcapital (by decide)

theorem gate_false (status : String) : gate false status = status := by
  unfold gate
  cases gateStyle? status <;> rfl

theorem cellRelated_gate {status : String} (h : Plain status) :
    CellRelated Tints (gate true status) (gate false status) := by
  rw [gate_false]
  unfold gate
  cases hstyle : gateStyle? status with
  | none => exact cellRelated_of_plain h
  | some style =>
    have hbreak := not_mem_of_gateStyle? hstyle
    exact cellRelated_of_line (Style.tints_paint style h) (Style.not_mem_paint style hbreak) hbreak

theorem plain_gate_iff {status : String} (h : Plain status) :
    Plain (gate true status) ↔ gateStyle? status = none := by
  unfold gate
  cases gateStyle? status with
  | none => exact ⟨fun _ => rfl, fun _ => h⟩
  | some style => exact ⟨fun hplain => absurd hplain (Style.not_plain_paint style status), nofun⟩

theorem tintsEvenly_count (coloured : Bool) (n : UInt32) :
    TintsEvenly (count coloured n) (count false n) := by
  have hplain := Style.plain_numeral n.toNat
  have hsingle : ∀ c ∈ (toString n.toNat).toList, Single c := fun _ hc =>
    Style.single_of_isDigit (Style.isDigit_of_mem_toString hc)
  unfold count
  rw [Bool.false_and, Style.paint_disabled]
  cases coloured && decide (0 < n) with
  | false => exact .refl hplain hsingle
  | true => exact .paint .red hplain hsingle

theorem plain_count_iff (n : UInt32) : Plain (count true n) ↔ n = 0 := by
  unfold count
  rw [Bool.true_and]
  by_cases hn : 0 < n
  · rw [decide_eq_true hn]
    exact ⟨fun h => absurd h (Style.not_plain_paint .red _), fun h => absurd hn (by simp [h])⟩
  · rw [decide_eq_false hn]
    exact ⟨fun _ => UInt32.le_zero_iff.mp (UInt32.not_lt.mp hn), fun _ => Style.plain_numeral _⟩

/-- A word that is not painted. -/
theorem tintsEvenly_word {s : String} (h : s.toList.all (fun c => Single c ∧ c ≠ '\x1b') = true) :
    TintsEvenly s s := by
  have hword : ∀ c ∈ s.toList, Single c ∧ c ≠ '\x1b' := Text.forall_of_all h
  exact .refl (fun hmem => (hword _ hmem).2 rfl) fun c hc => (hword c hc).1

theorem tintsEvenly_counted (coloured : Bool) (n : UInt32) {one many : String}
    (hone : TintsEvenly one one) (hmany : TintsEvenly many many) :
    TintsEvenly (counted coloured n one many) (counted false n one many) := by
  refine ((tintsEvenly_count coloured n).append (tintsEvenly_word (by decide))).append ?_
  split
  · exact hone
  · exact hmany

theorem plain_counted_iff (n : UInt32) {one many : String} (hone : TintsEvenly one one)
    (hmany : TintsEvenly many many) : Plain (counted true n one many) ↔ n = 0 := by
  have hword : Plain (if n = 1 then one else many) := by
    split
    · exact hone.plain_of_length rfl
    · exact hmany.plain_of_length rfl
  have hblank : Plain " " := by decide
  rw [counted, Style.plain_append, Style.plain_append, plain_count_iff]
  simp only [hblank, hword, and_true]

theorem tintsEvenly_findings (bugs codeSmells vulnerabilities : UInt32) :
    TintsEvenly (findings true bugs codeSmells vulnerabilities)
      (findings false bugs codeSmells vulnerabilities) := by
  have hcomma : TintsEvenly ", " ", " := tintsEvenly_word (by decide)
  refine ((((tintsEvenly_counted true bugs ?_ ?_).append hcomma).append
    (tintsEvenly_counted true vulnerabilities ?_ ?_)).append hcomma).append
      (tintsEvenly_counted false codeSmells ?_ ?_) <;> exact tintsEvenly_word (by decide)

/-- Findings are shown without colour if there are none but code smells. -/
theorem plain_findings_iff (bugs codeSmells vulnerabilities : UInt32) :
    Plain (findings true bugs codeSmells vulnerabilities) ↔ bugs = 0 ∧ vulnerabilities = 0 := by
  have hbugs : Plain (counted true bugs "bug" "bugs") ↔ bugs = 0 :=
    plain_counted_iff bugs (tintsEvenly_word (by decide)) (tintsEvenly_word (by decide))
  have hvulnerabilities : Plain (counted true vulnerabilities "vulnerability" "vulnerabilities") ↔
      vulnerabilities = 0 :=
    plain_counted_iff vulnerabilities (tintsEvenly_word (by decide)) (tintsEvenly_word (by decide))
  have hsmells : Plain (counted false codeSmells "code smell" "code smells") := by
    refine (tintsEvenly_counted false codeSmells ?_ ?_).plain_of_length rfl <;>
      exact tintsEvenly_word (by decide)
  have hcomma : Plain ", " := by decide
  simp only [findings, Style.plain_append, hbugs, hvulnerabilities, hsmells, hcomma, and_true]

/-! ### Rows of a branch listing -/

theorem plain_truncate {s : String} (h : Plain s) (max : Nat) : Plain (Text.truncate s max) := by
  have htake (n : Nat) : '\x1b' ∉ s.toList.take n := fun hmem => h (List.mem_of_mem_take hmem)
  unfold Text.truncate
  dsimp only
  split
  · exact h
  unfold Plain
  split
  · rw [String.toList_ofList, List.mem_append, not_or]
    exact ⟨htake _, by decide⟩
  · rw [String.toList_ofList]
    exact htake _

theorem plain_age (date : Option Instant) (now : Instant) : Plain (Age.ofAnalysis date now) := by
  unfold Age.ofAnalysis
  cases date with
  | none =>
    show Plain "-"
    decide
  | some t =>
    show Plain (Age.between t now).text
    generalize Age.between t now = age
    cases age with
    | ahead => decide
    | now => decide
    | ago n unit =>
      have hunit : Plain unit.name := by cases unit <;> decide
      have hplural : Plain (if n = 1 then "" else "s") := by
        split <;> decide
      have hend : Plain " ago" := by decide
      have hnumeral := Style.plain_numeral n
      show Plain ((toString n ++ " " ++ unit.name ++ if n = 1 then "" else "s") ++ " ago")
      simp only [Style.plain_append, hnumeral, hunit, hplural, hend, and_true, true_and]
      decide

end Report

namespace BranchLike

/-- The texts of an entry that a listing shows. -/
def shownTexts : BranchLike → List String
  | .branch b => b.name :: (b.status.bind (·.qualityGate)).toList
  | .pullRequest p => [p.id, p.name, p.base]

/-- Is there something in an entry that stands out: a known state of the quality gate, or a bug or
a vulnerability? -/
def standsOut : BranchLike → Bool
  | .branch b =>
    match b.status with
    | none => false
    | some s =>
      match s.qualityGate with
      | some status => (Report.gateStyle? status).isSome
      | none => s.bugs.getD 0 ≠ 0 || s.vulnerabilities.getD 0 ≠ 0
  | .pullRequest p => p.status.bugs ≠ 0 || p.status.vulnerabilities ≠ 0

end BranchLike

namespace Report

theorem plain_displayName {b : BranchLike} (h : ∀ s ∈ b.shownTexts, Plain s) :
    Plain b.displayName := by
  cases b with
  | branch b => exact h b.name List.mem_cons_self
  | pullRequest p =>
    have hid := h p.id (by simp [BranchLike.shownTexts])
    have hname := h p.name (by simp [BranchLike.shownTexts])
    exact Style.plain_append.mpr ⟨Style.plain_append.mpr ⟨hid, by decide⟩, hname⟩

theorem plain_kind {b : BranchLike} (h : ∀ s ∈ b.shownTexts, Plain s) : Plain (kind b) := by
  cases b with
  | branch b =>
    have hkinds : branchKind b ∈ ["main", "long", "short", "branch", "unknown"] := by
      unfold branchKind
      split
      · decide
      split <;> decide
    have hplain : ∀ s ∈ ["main", "long", "short", "branch", "unknown"], Plain s := by decide
    exact hplain _ hkinds
  | pullRequest p =>
    exact Style.plain_append.mpr ⟨by decide, h p.base (by simp [BranchLike.shownTexts])⟩

theorem cellRelated_status {b : BranchLike} (h : ∀ s ∈ b.shownTexts, Plain s) :
    CellRelated Tints (status true b) (status false b) := by
  rcases b with p | ⟨name, isMain, type, mergeBranch, date, _ | ⟨_ | state, bugs, smells, vulns⟩⟩
  · exact cellRelated_of_even (tintsEvenly_findings _ _ _)
  · show CellRelated Tints "-" "-"
    exact cellRelated_of_plain (by decide)
  · show CellRelated Tints (findings true _ _ _) (findings false _ _ _)
    exact cellRelated_of_even (tintsEvenly_findings _ _ _)
  · show CellRelated Tints (gate true state) (gate false state)
    exact cellRelated_gate (h state (List.mem_cons_of_mem _ List.mem_cons_self))

theorem plain_status_iff {b : BranchLike} (h : ∀ s ∈ b.shownTexts, Plain s) :
    Plain (status true b) ↔ b.standsOut = false := by
  rcases b with p | ⟨name, isMain, type, mergeBranch, date, _ | ⟨_ | state, bugs, smells, vulns⟩⟩
  · refine (plain_findings_iff _ _ _).trans ?_
    simp [BranchLike.standsOut]
  · exact ⟨fun _ => rfl, fun _ => by show Plain "-"; decide⟩
  · refine (plain_findings_iff (bugs.getD 0) (smells.getD 0) (vulns.getD 0)).trans ?_
    simp [BranchLike.standsOut]
  · refine (plain_gate_iff (h state (List.mem_cons_of_mem _ List.mem_cons_self))).trans ?_
    simp [BranchLike.standsOut]

/-- A row is painted in the cell that tells how the entry fares. -/
theorem cellsRelated_branchRow {b : BranchLike} (h : ∀ s ∈ b.shownTexts, Plain s) (now : Instant) :
    List.Forall₂ (CellRelated Tints) (branchRow true now b) (branchRow false now b) :=
  .cons (cellRelated_of_plain (plain_truncate (plain_displayName h) maxName)) <|
    .cons (cellRelated_of_plain (plain_kind h)) <| .cons (cellRelated_status h) <|
      .cons (cellRelated_of_plain (plain_age b.analysisDate now)) .nil

theorem plain_branchRow_iff {b : BranchLike} (h : ∀ s ∈ b.shownTexts, Plain s) (now : Instant) :
    (∀ cell ∈ branchRow true now b, Plain cell) ↔ b.standsOut = false := by
  have hname := plain_truncate (plain_displayName h) maxName
  have hkind := plain_kind h
  have hage := plain_age b.analysisDate now
  simp only [branchRow, List.forall_mem_cons, plain_status_iff h]
  simp [hname, hkind, hage]

/-! ### Rows of measures -/

/-- Is a value that is shown for a metric a known state of the quality gate? -/
def valueStandsOut (metric : String) (value : Option String) : Bool :=
  metric = "alert_status" && (value.bind gateStyle?).isSome

theorem cellRelated_value {metric : String} {v : Option String} (h : ∀ s ∈ v, Plain s) :
    CellRelated Tints (value true metric v) (value false metric v) := by
  cases v with
  | none => exact cellRelated_of_plain (s := missing) (by decide)
  | some v =>
    have hv := h v rfl
    unfold value
    dsimp only
    split
    · exact cellRelated_gate hv
    · exact cellRelated_of_plain hv

theorem plain_value_iff {metric : String} {v : Option String} (h : ∀ s ∈ v, Plain s) :
    Plain (value true metric v) ↔ valueStandsOut metric v = false := by
  cases v with
  | none => exact ⟨fun _ => by simp [valueStandsOut], fun _ => by show Plain missing; decide⟩
  | some v =>
    have hv := h v rfl
    unfold value valueStandsOut
    by_cases hmetric : metric = "alert_status"
    · simp [hmetric, plain_gate_iff hv]
    · simp [hmetric, hv]

end Report

/-! ### What measures show -/

namespace Measure

/-- The texts of a measure that a listing shows. -/
def shownTexts (m : Measure) : List String :=
  m.metric :: (m.value.toList ++ (m.periodValue? 1).toList)

/-- Is the measure a known state of the quality gate? -/
def standsOut (m : Measure) : Bool := Report.valueStandsOut m.metric m.value

end Measure

namespace ProjectMeasure

/-- The texts of a measure that a listing shows. -/
def shownTexts (m : ProjectMeasure) : List String :=
  m.component :: m.metric :: m.value.toList

/-- Is the measure a known state of the quality gate? -/
def standsOut (m : ProjectMeasure) : Bool := Report.valueStandsOut m.metric m.value

end ProjectMeasure

namespace MeasuresAndMeta

/-- The texts that are shown of the measures of a component and of what explains them. -/
def shownTexts (m : MeasuresAndMeta) : List String :=
  m.component.name :: m.component.key :: (m.component.description.toList ++
    m.component.measures.flatMap (fun measure => measure.metric :: measure.value.toList) ++
    (m.metrics.getD []).flatMap (fun metric => [metric.name, metric.type]) ++
    (m.periods.getD []).flatMap fun period => period.mode :: period.parameter.toList)

def standsOut (m : MeasuresAndMeta) : Bool := m.component.measures.any Measure.standsOut

end MeasuresAndMeta

namespace Report

theorem forall_toList_iff {v : Option String} :
    (∀ s ∈ v.toList, Plain s) ↔ ∀ s ∈ v, Plain s := by
  simp only [Option.mem_toList, Option.mem_def]

/-- A text that is shown where there is one. -/
theorem plain_getD {v : Option String} (h : ∀ s ∈ v, Plain s) : Plain (v.getD missing) := by
  cases v with
  | none => exact (by decide : Plain missing)
  | some s => exact h s rfl

theorem cellsRelated_measureRow {m : Measure} (h : ∀ s ∈ m.shownTexts, Plain s) :
    List.Forall₂ (CellRelated Tints) (measureRow true m) (measureRow false m) := by
  simp only [Measure.shownTexts, List.forall_mem_cons, List.forall_mem_append,
    forall_toList_iff] at h
  obtain ⟨hmetric, hvalue, hperiod⟩ := h
  exact .cons (cellRelated_of_plain hmetric) <| .cons (cellRelated_value hvalue) <|
    .cons (cellRelated_of_plain (plain_getD hperiod)) .nil

theorem plain_measureRow_iff {m : Measure} (h : ∀ s ∈ m.shownTexts, Plain s) :
    (∀ cell ∈ measureRow true m, Plain cell) ↔ m.standsOut = false := by
  simp only [Measure.shownTexts, List.forall_mem_cons, List.forall_mem_append,
    forall_toList_iff] at h
  obtain ⟨hmetric, hvalue, hperiod⟩ := h
  simp only [measureRow, List.forall_mem_cons, plain_value_iff hvalue]
  simp [hmetric, plain_getD hperiod, Measure.standsOut]

theorem cellsRelated_projectRow {m : ProjectMeasure} (h : ∀ s ∈ m.shownTexts, Plain s) :
    List.Forall₂ (CellRelated Tints) (projectRow true m) (projectRow false m) := by
  simp only [ProjectMeasure.shownTexts, List.forall_mem_cons, forall_toList_iff] at h
  obtain ⟨hcomponent, hmetric, hvalue⟩ := h
  exact .cons (cellRelated_of_plain hcomponent) <| .cons (cellRelated_of_plain hmetric) <|
    .cons (cellRelated_value hvalue) .nil

theorem plain_projectRow_iff {m : ProjectMeasure} (h : ∀ s ∈ m.shownTexts, Plain s) :
    (∀ cell ∈ projectRow true m, Plain cell) ↔ m.standsOut = false := by
  simp only [ProjectMeasure.shownTexts, List.forall_mem_cons, forall_toList_iff] at h
  obtain ⟨hcomponent, hmetric, hvalue⟩ := h
  simp only [projectRow, List.forall_mem_cons, plain_value_iff hvalue]
  simp [hcomponent, hmetric, ProjectMeasure.standsOut]

/-- What explains a metric is the metric or one of the texts of its definition. -/
theorem plain_explain {definitions : List Metric} {key : String} (hkey : Plain key)
    (h : ∀ d ∈ definitions, Plain d.name ∧ Plain d.type) :
    Plain (explain definitions key).1 ∧ Plain (explain definitions key).2 := by
  unfold explain
  cases hfound : definitions.find? (·.key = key) with
  | none => exact ⟨hkey, (by decide : Plain missing)⟩
  | some d => exact h d (List.mem_of_find?_eq_some hfound)

theorem cellsRelated_explainedRow {definitions : List Metric} {m : Measure}
    (hmetric : Plain m.metric) (hvalue : ∀ s ∈ m.value, Plain s)
    (hdefinitions : ∀ d ∈ definitions, Plain d.name ∧ Plain d.type) :
    List.Forall₂ (CellRelated Tints) (explainedRow true definitions m)
      (explainedRow false definitions m) := by
  obtain ⟨hname, htype⟩ := plain_explain hmetric hdefinitions
  exact .cons (cellRelated_of_plain hname) <| .cons (cellRelated_of_plain htype) <|
    .cons (cellRelated_value hvalue) .nil

theorem plain_explainedRow_iff {definitions : List Metric} {m : Measure}
    (hmetric : Plain m.metric) (hvalue : ∀ s ∈ m.value, Plain s)
    (hdefinitions : ∀ d ∈ definitions, Plain d.name ∧ Plain d.type) :
    (∀ cell ∈ explainedRow true definitions m, Plain cell) ↔ m.standsOut = false := by
  obtain ⟨hname, htype⟩ := plain_explain hmetric hdefinitions
  simp only [explainedRow, List.forall_mem_cons, plain_value_iff hvalue]
  simp [hname, htype, Measure.standsOut]

/-! ### Reports -/

/-- What painting does to a report in which something stands out or not: nothing that the report
says is changed, but the blanks and strokes of its table are if something stands out. -/
structure Decorates (coloured plain : String) (standsOut : Bool) : Prop where
  same_ink : (unpaint coloured).toList.filter inked = plain.toList.filter inked
  unpaint_eq_iff : unpaint coloured = plain ↔ standsOut = false

/-- A report without a table. -/
theorem Decorates.refl {s : String} (h : Plain s) : Decorates s s false := by
  have hunpaint : unpaint s = s := by rw [h.unpaints.unpaint_eq, String.ofList_toList]
  exact ⟨by rw [hunpaint], ⟨fun _ => rfl, fun _ => hunpaint⟩⟩

section Listing

variable {α : Type} {as : List α} {row row' : α → List String} {standsOut : α → Bool}

/-- A table with one row for each of `as`. -/
theorem related_of_rows {header : List String} (hheader : ∀ cell ∈ header, Plain cell)
    (hrow : ∀ a ∈ as, List.Forall₂ (CellRelated Tints) (row a) (row' a)) :
    Related Tints { header := some header, rows := as.map row }
      { header := some header, rows := as.map row' } where
  empty := .refl (by decide)
  header := .some (List.forall₂_same.mpr fun cell hcell => cellRelated_of_plain (hheader cell hcell))
  rows := by
    rw [List.forall₂_map_left_iff, List.forall₂_map_right_iff, List.forall₂_same]
    exact hrow

/-- A report that is made of a table with texts around it. -/
theorem decorates_tableText {header : List String} (hheader : ∀ cell ∈ header, Plain cell)
    (hrow : ∀ a ∈ as, List.Forall₂ (CellRelated Tints) (row a) (row' a))
    (hplain : ∀ a ∈ as, (∀ cell ∈ row a, Plain cell) ↔ standsOut a = false)
    {front front' back : String} (hfront : Unpaints front.toList front'.toList)
    (hback : Plain back) :
    Decorates (front ++ tableText header (as.map row) ++ back)
      (front' ++ tableText header (as.map row') ++ back) (as.any standsOut) := by
  have hrelated := related_of_rows hheader hrow
  obtain ⟨left, hleft, hink⟩ := Table.sameInk_text hrelated
  have hbreak : Unpaints "\n".toList ['\n'] := Plain.unpaints (by decide)
  have hwhole : unpaint (front ++ tableText header (as.map row) ++ back) =
      String.ofList (front'.toList ++ (left ++ ['\n']) ++ back.toList) := by
    refine Unpaints.unpaint_eq ?_
    rw [String.toList_append, String.toList_append, tableText, String.toList_append]
    exact (hfront.append (hleft.append hbreak)).append hback.unpaints
  have hplainText : (front' ++ tableText header (as.map row') ++ back).toList =
      front'.toList ++ ((Table.text { header := some header, rows := as.map row' }).toList ++
        ['\n']) ++ back.toList := by
    rw [String.toList_append, String.toList_append, tableText, String.toList_append]
    rfl
  constructor
  · rw [hwhole, String.toList_ofList, hplainText]
    simp only [List.filter_append, hink]
  · rw [hwhole, ← String.toList_inj, String.toList_ofList, hplainText, List.append_left_inj,
      List.append_right_inj, List.append_left_inj]
    have htable := Table.unpaint_text_iff hrelated
    rw [hleft.unpaint_eq, ← String.toList_inj, String.toList_ofList] at htable
    refine htable.trans ?_
    show (∀ r ∈ header :: as.map row, ∀ cell ∈ r, Plain cell) ↔ _
    rw [List.forall_mem_cons, List.forall_mem_map, List.any_eq_false]
    constructor
    · intro h a ha
      rw [(hplain a ha).mp (h.2 a ha)]
      exact Bool.false_ne_true
    · intro h
      exact ⟨hheader, fun a ha => (hplain a ha).mpr (Bool.eq_false_iff.mpr (h a ha))⟩

/-- A report that is made of nothing but a table. -/
theorem decorates_onlyTable {header : List String} (hheader : ∀ cell ∈ header, Plain cell)
    (hrow : ∀ a ∈ as, List.Forall₂ (CellRelated Tints) (row a) (row' a))
    (hplain : ∀ a ∈ as, (∀ cell ∈ row a, Plain cell) ↔ standsOut a = false) :
    Decorates (tableText header (as.map row)) (tableText header (as.map row'))
      (as.any standsOut) := by
  have hempty : Plain "" := by decide
  have htable := decorates_tableText hheader hrow hplain hempty.unpaints hempty
  simpa only [String.empty_append, String.append_empty] using htable

end Listing

/-- A listing of branches. -/
theorem decorates_branches {entries : List BranchLike}
    (h : ∀ b ∈ entries, ∀ s ∈ b.shownTexts, Plain s) (now : Instant) :
    Decorates (branches true now entries) (branches false now entries)
      (entries.any BranchLike.standsOut) := by
  cases entries with
  | nil => exact .refl (s := "No branches found.\n") (by decide)
  | cons b entries =>
    exact decorates_onlyTable (by decide) (fun b hb => cellsRelated_branchRow (h b hb) now)
      fun b hb => plain_branchRow_iff (h b hb) now

/-- The measures of a component. -/
theorem decorates_measures {ms : List Measure} (h : ∀ m ∈ ms, ∀ s ∈ m.shownTexts, Plain s) :
    Decorates (measures true ms) (measures false ms) (ms.any Measure.standsOut) := by
  cases ms with
  | nil => exact .refl (s := noMeasures) (by decide)
  | cons m ms =>
    exact decorates_onlyTable (by decide) (fun m hm => cellsRelated_measureRow (h m hm))
      fun m hm => plain_measureRow_iff (h m hm)

/-- The measures of several projects. -/
theorem decorates_projectMeasures {ms : List ProjectMeasure}
    (h : ∀ m ∈ ms, ∀ s ∈ m.shownTexts, Plain s) :
    Decorates (projectMeasures true ms) (projectMeasures false ms)
      (ms.any ProjectMeasure.standsOut) := by
  cases ms with
  | nil => exact .refl (s := noMeasures) (by decide)
  | cons m ms =>
    exact decorates_onlyTable (by decide) (fun m hm => cellsRelated_projectRow (h m hm))
      fun m hm => plain_projectRow_iff (h m hm)

theorem plain_periodDay (p : Period) : Plain (periodDay p) := by
  unfold periodDay
  cases p.date with
  | none =>
    show Plain missing
    decide
  | some t =>
    have hpadded (width n : Nat) : '\x1b' ∉ Text.padded width n := fun h =>
      absurd (Text.isDigit_of_mem_padded h) (by decide)
    have hyear (y : Int) : '\x1b' ∉ Timestamp.yearText y := by
      unfold Timestamp.yearText
      split
      · exact hpadded _ _
      · rw [List.mem_cons, not_or]
        refine ⟨?_, hpadded _ _⟩
        split <;> decide
    show '\x1b' ∉ (String.ofList (Timestamp.dayChars t.date)).toList
    simp [Timestamp.dayChars, hyear, hpadded]

theorem plain_periodLine {p : Period} (hmode : Plain p.mode)
    (hparameter : ∀ s ∈ p.parameter, Plain s) : Plain (periodLine p) := by
  have hindex := Style.plain_numeral p.index.toNat
  have hday := plain_periodDay p
  have hgiven : Plain (p.parameter.getD "") := by
    cases hparameters : p.parameter with
    | none => exact (by decide : Plain "")
    | some s => exact hparameter s hparameters
  simp only [periodLine, Style.plain_append, hindex, hmode, hgiven, hday, and_true]
  decide

/-- The table of the measures of a component with what stands before it and behind it. -/
theorem join_measuresAndMeta (coloured : Bool) (m : MeasuresAndMeta) :
    String.join (measuresAndMeta coloured m) =
      title coloured m.component ++ (m.component.description.map (· ++ "\n")).getD "" ++ "\n" ++
        tableText ["Metric", "Type", "Value"]
          (m.component.measures.map (explainedRow coloured (m.metrics.getD []))) ++
        String.join ((m.periods.getD []).map periodLine) := by
  apply String.toList_injective
  unfold measuresAndMeta
  cases m.component.description <;> simp [String.toList_join]

/-- The measures of a component with what explains them. The title is painted, too, but it stands
outside the table. -/
theorem decorates_measuresAndMeta {m : MeasuresAndMeta} (h : ∀ s ∈ m.shownTexts, Plain s) :
    Decorates (String.join (measuresAndMeta true m)) (String.join (measuresAndMeta false m))
      m.standsOut := by
  simp only [MeasuresAndMeta.shownTexts, List.forall_mem_cons, List.forall_mem_append,
    List.forall_mem_flatMap, forall_toList_iff] at h
  obtain ⟨hname, hkey, ⟨⟨hdescription, hmeasures⟩, hmetrics⟩, hperiods⟩ := h
  have hdefinitions : ∀ d ∈ m.metrics.getD [], Plain d.name ∧ Plain d.type := fun d hd =>
    ⟨(hmetrics d hd).1, (hmetrics d hd).2.1⟩
  have htitle : Plain (m.component.name ++ " (" ++ m.component.key ++ ")") := by
    simp only [Style.plain_append, hname, hkey, and_true, true_and]
    decide
  have hshown : Plain ((m.component.description.map (· ++ "\n")).getD "") := by
    cases hgiven : m.component.description with
    | none => exact (by decide : Plain "")
    | some s => exact Style.plain_append.mpr ⟨hdescription s hgiven, by decide⟩
  have hback : Plain (String.join ((m.periods.getD []).map periodLine)) := by
    intro hmem
    rw [String.toList_join, List.mem_flatMap] at hmem
    obtain ⟨line, hline, hmem⟩ := hmem
    obtain ⟨p, hp, rfl⟩ := List.mem_map.mp hline
    exact plain_periodLine (hperiods p hp).1 (hperiods p hp).2 hmem
  have hbreak : Plain "\n" := by decide
  show Decorates _ _ (m.component.measures.any Measure.standsOut)
  rw [join_measuresAndMeta, join_measuresAndMeta]
  refine decorates_tableText (by decide)
    (fun measure hmeasure => cellsRelated_explainedRow (hmeasures measure hmeasure).1
      (hmeasures measure hmeasure).2 hdefinitions)
    (fun measure hmeasure => plain_explainedRow_iff (hmeasures measure hmeasure).1
      (hmeasures measure hmeasure).2 hdefinitions) ?_ hback
  simp only [title, String.toList_append]
  exact (((Style.unpaints_paint .emphatic true htitle).append hbreak.unpaints).append
    hshown.unpaints).append hbreak.unpaints

end Report
end CodeQuality
