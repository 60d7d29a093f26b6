import CodeQuality.Proofs.BranchLike
import CodeQuality.Proofs.Json.Shown
import CodeQuality.Proofs.Run.Server

/-!
# Answers in JSON

What an operation that asks shows in JSON is written by the schema of its answer, and a server's
answer is read by the same schema inside a record of its own. So what is shown can be read again,
and a server that puts it into an answer is understood as before: nothing but the dates has changed,
which are cut to milliseconds, and that has been done when it was shown.

* `Operation.cut`, `Operation.body` — the answer that is shown, and the body that holds it.
* `Operation.Portrait` — how an answer is written and read.
* `Operation.echo` — the text that is shown, read in both ways.
-/

namespace CodeQuality

open Json (Schema Value)

/-! ### Dates of the records -/

section Parts

variable {α : Type} {s : Schema} {toVal : α → s.Val} {ofVal : s.Val → α} {cut : α → α}
  {date? : α → Option Instant}

theorem Json.map_ofVal (h : ∀ x, toVal (ofVal x) = x) (xs : List s.Val) :
    (xs.map ofVal).map toVal = xs := by
  rw [List.map_map]
  exact (List.map_congr_left fun x _ => h x).trans (List.map_id xs)

theorem Json.cut_list (h : ∀ a, s.cut (toVal a) = toVal (cut a)) (as : List α) :
    List.map s.cut (as.map toVal) = (as.map cut).map toVal := by
  rw [List.map_map, List.map_map]
  exact List.map_congr_left fun a _ => h a

theorem Json.dates_list (h : ∀ a, s.dates (toVal a) = (date? a).toList) (as : List α) :
    (as.map toVal).flatMap s.dates = as.filterMap date? := by
  induction as with
  | nil => rfl
  | cons a as ih =>
    rw [List.map_cons, List.flatMap_cons, ih, h, List.filterMap_cons]
    cases date? a <;> rfl

end Parts

namespace BranchLike

/-- The entry with its date cut to milliseconds. -/
def cut : BranchLike → BranchLike
  | pullRequest p => .pullRequest { p with analysisDate := p.analysisDate.map Instant.cutToMillis }
  | branch b => .branch { b with analysisDate := b.analysisDate.map Instant.cutToMillis }

theorem cut_toVal (e : BranchLike) : schema.cut e.toVal = e.cut.toVal := by
  cases e with
  | pullRequest p => rfl
  | branch b =>
    have htype := Schema.cut_of_timeless (s := .optional BranchType.schema) rfl
      (b.type.map BranchType.toVal)
    have hmerge := Schema.cut_of_timeless (s := .optional .text) rfl b.mergeBranch
    have hstatus := Schema.cut_of_timeless (s := .optional BranchStatus.schema) rfl
      (b.status.map BranchStatus.toVal)
    have hrow : Branch.schema.cut b.toVal =
        (b.name, b.isMain, (Schema.optional BranchType.schema).cut (b.type.map BranchType.toVal),
          (Schema.optional .text).cut b.mergeBranch, b.analysisDate.map Instant.cutToMillis,
          (Schema.optional BranchStatus.schema).cut (b.status.map BranchStatus.toVal), ()) := rfl
    show Sum.inr (Branch.schema.cut b.toVal) = Sum.inr _
    rw [hrow, htype, hmerge, hstatus]
    rfl

theorem dates_toVal (e : BranchLike) : schema.dates e.toVal = e.analysisDate.toList := by
  cases e with
  | pullRequest p =>
    show Schema.date.dates p.analysisDate ++ [] = p.analysisDate.toList
    rw [Schema.dates_date, List.append_nil]
  | branch b =>
    have htype := Schema.dates_of_timeless (s := .optional BranchType.schema) rfl
      (b.type.map BranchType.toVal)
    have hmerge := Schema.dates_of_timeless (s := .optional .text) rfl b.mergeBranch
    have hstatus := Schema.dates_of_timeless (s := .optional BranchStatus.schema) rfl
      (b.status.map BranchStatus.toVal)
    have hrow : Branch.schema.dates b.toVal =
        (Schema.optional BranchType.schema).dates (b.type.map BranchType.toVal) ++
          ((Schema.optional .text).dates b.mergeBranch ++ (Schema.date.dates b.analysisDate ++
            ((Schema.optional BranchStatus.schema).dates (b.status.map BranchStatus.toVal) ++
              []))) := rfl
    show Branch.schema.dates b.toVal = b.analysisDate.toList
    rw [hrow, htype, hmerge, hstatus, Schema.dates_date]
    exact List.append_nil _

end BranchLike

namespace Period

/-- The period with its date cut to milliseconds. -/
def cut (p : Period) : Period := { p with date := p.date.map Instant.cutToMillis }

theorem cut_toVal (p : Period) : schema.cut p.toVal = p.cut.toVal := by
  have hparameter := Schema.cut_of_timeless (s := .optional .text) rfl p.parameter
  show (p.index, p.mode, p.date.map Instant.cutToMillis, (Schema.optional .text).cut p.parameter,
    ()) = _
  rw [hparameter]
  rfl

theorem dates_toVal (p : Period) : schema.dates p.toVal = p.date.toList := by
  have hparameter := Schema.dates_of_timeless (s := .optional .text) rfl p.parameter
  show Schema.date.dates p.date ++ ((Schema.optional .text).dates p.parameter ++ []) = _
  rw [hparameter, Schema.dates_date]
  exact List.append_nil _

end Period

namespace Measure

theorem toVal_ofVal (x : schema.Val) : toVal (ofVal x) = x := by
  obtain ⟨metric, value, periods, bestValue, ⟨⟩⟩ := x
  exact congrArg (fun periods => (metric, value, periods, bestValue, ()))
    (Json.map_map_cancel (fun _ => rfl) periods)

end Measure

namespace MeasureComponent

theorem toVal_ofVal (x : schema.Val) : toVal (ofVal x) = x := by
  obtain ⟨key, name, qualifier, description, measures, ⟨⟩⟩ := x
  exact congrArg (fun measures => (key, name, qualifier, description, measures, ()))
    (Json.map_ofVal Measure.toVal_ofVal measures)

end MeasureComponent

namespace MeasuresAndMeta

theorem toVal_ofVal (x : schema.Val) : toVal (ofVal x) = x := by
  obtain ⟨component, metrics, periods, ⟨⟩⟩ := x
  have hc := MeasureComponent.toVal_ofVal component
  have hm := Json.map_map_cancel (f := Metric.toVal) (g := Metric.ofVal) (fun _ => rfl) metrics
  have hp := Json.map_map_cancel (f := Period.toVal) (g := Period.ofVal) (fun _ => rfl) periods
  exact congr (congrArg Prod.mk hc) (congr (congrArg Prod.mk hm) (congrArg (·, ()) hp))

/-- The measures with the dates of their periods cut to milliseconds. -/
def cut (m : MeasuresAndMeta) : MeasuresAndMeta :=
  { m with periods := m.periods.map (List.map Period.cut) }

/-- The dates of the periods. -/
def dates (m : MeasuresAndMeta) : List Instant := (m.periods.getD []).filterMap (·.date)

theorem cut_toVal (m : MeasuresAndMeta) : schema.cut m.toVal = m.cut.toVal := by
  have hcomponent := Schema.cut_of_timeless (s := MeasureComponent.schema) rfl m.component.toVal
  have hmetrics := Schema.cut_of_timeless (s := .optional (.list Metric.schema)) rfl
    (m.metrics.map (List.map Metric.toVal))
  have hperiods : (Schema.optional (.list Period.schema)).cut
      (m.periods.map (List.map Period.toVal)) =
        (m.periods.map (List.map Period.cut)).map (List.map Period.toVal) := by
    cases m.periods with
    | none => rfl
    | some periods => exact congrArg some (Json.cut_list Period.cut_toVal periods)
  show (MeasureComponent.schema.cut m.component.toVal,
    (Schema.optional (.list Metric.schema)).cut (m.metrics.map (List.map Metric.toVal)),
    (Schema.optional (.list Period.schema)).cut (m.periods.map (List.map Period.toVal)), ()) = _
  rw [hcomponent, hmetrics, hperiods]
  rfl

theorem dates_toVal (m : MeasuresAndMeta) : schema.dates m.toVal = m.dates := by
  have hcomponent := Schema.dates_of_timeless (s := MeasureComponent.schema) rfl m.component.toVal
  have hmetrics := Schema.dates_of_timeless (s := .optional (.list Metric.schema)) rfl
    (m.metrics.map (List.map Metric.toVal))
  have hperiods : (Schema.optional (.list Period.schema)).dates
      (m.periods.map (List.map Period.toVal)) = m.dates := by
    unfold dates
    cases m.periods with
    | none => rfl
    | some periods => exact Json.dates_list Period.dates_toVal periods
  show MeasureComponent.schema.dates m.component.toVal ++
    ((Schema.optional (.list Metric.schema)).dates (m.metrics.map (List.map Metric.toVal)) ++
      ((Schema.optional (.list Period.schema)).dates (m.periods.map (List.map Period.toVal)) ++
        [])) = _
  rw [hcomponent, hmetrics, hperiods]
  exact List.append_nil _

end MeasuresAndMeta

/-! ### Answers -/

namespace Operation

/-- The dates in what an operation gives. -/
def dates : (op : Operation) → op.Answer → List Instant
  | branches _ => fun entries => entries.filterMap (·.analysisDate)
  | measuresAndMeta _ _ _ => MeasuresAndMeta.dates
  | deleteBranch _ | renameBranch _ _ | measures _ | projectMeasures _ _ => fun _ => []

/-- What an operation gives, with its dates cut to milliseconds. -/
def cut : (op : Operation) → op.Answer → op.Answer
  | branches _ => List.map BranchLike.cut
  | measuresAndMeta _ _ _ => MeasuresAndMeta.cut
  | deleteBranch _ | renameBranch _ _ | measures _ | projectMeasures _ _ => id

/-- What a text says that holds nothing but what an operation gives. -/
def readAnswer : (op : Operation) → String → Except Json.Failure op.Answer
  | branches _ => fun text =>
    ((Schema.list BranchLike.schema).read text).map (List.map BranchLike.ofVal)
  | deleteBranch _ | renameBranch _ _ => fun _ => .ok ()
  | measures _ => fun text => ((Schema.list Measure.schema).read text).map (List.map Measure.ofVal)
  | measuresAndMeta _ _ _ => fun text => (MeasuresAndMeta.schema.read text).map .ofVal
  | projectMeasures _ _ => fun text =>
    ((Schema.list ProjectMeasure.schema).read text).map (List.map ProjectMeasure.ofVal)

/-- The body in which a server sends a text as what an operation gives. -/
def body (text : String) : Operation → String
  | branches _ => "\x7b\"branches\": " ++ text ++ "\x7d"
  | deleteBranch _ | renameBranch _ _ => ""
  | measures _ => "\x7b\"component\":\x7b\"measures\": " ++ text ++ "\x7d\x7d"
  | measuresAndMeta _ _ _ => text
  | projectMeasures _ _ => "\x7b\"measures\": " ++ text ++ "\x7d"

/-- How what an operation gives is written and read: by a schema, which is also that of the answer
inside the body of a response. -/
structure Portrait (op : Operation) where
  schema : Schema
  toVal : op.Answer → schema.Val
  ofVal : schema.Val → op.Answer
  faithful : schema.faithful = true
  /-- there is room for two records around it -/
  nesting_le : schema.nesting ≤ 125
  ofVal_toVal : ∀ a, ofVal (toVal a) = a
  cut_toVal : ∀ a, schema.cut (toVal a) = toVal (op.cut a)
  dates_toVal : ∀ a, schema.dates (toVal a) = op.dates a
  shown_eq : ∀ coloured now a,
    op.shown ⟨true, coloured, now⟩ a = Display.jsonText (schema.toValue (toVal a))
  read_eq : ∀ text, op.readAnswer text = (schema.read text).map ofVal
  dated : ∀ body a, op.decode false body = .ok a → schema.Dated (toVal a)
  decode_body : ∀ text cs b, text.toList = cs ++ ['\n'] →
    (∀ levels, schema.nesting ≤ levels → (schema.reader levels).Decodes cs b) →
      op.decode false (op.body text) = .ok (ofVal b)

/-- A list whose records are written one by one. -/
theorem map_toValue {α : Type} {s : Schema} (toVal : α → s.Val) (as : List α) :
    Value.list (as.map fun a => s.toValue (toVal a)) =
      (Schema.list s).toValue (as.map toVal) :=
  congrArg Value.list List.map_map.symm

/-- A blank behind a colon. -/
theorem isSpace_blank : ∀ c ∈ [' '], Json.isSpace c = true := List.forall_mem_singleton.mpr rfl

theorem ofVal_toVal_list {α : Type} {s : Schema} {toVal : α → s.Val} {ofVal : s.Val → α}
    (h : ∀ a, ofVal (toVal a) = a) (as : List α) : (as.map toVal).map ofVal = as := by
  rw [List.map_map]
  exact (List.map_congr_left fun a _ => h a).trans (List.map_id as)

/-- The branches of a project. -/
def branchesPortrait (project : String) : (branches project).Portrait where
  schema := .list BranchLike.schema
  toVal := List.map BranchLike.toVal
  ofVal := List.map BranchLike.ofVal
  faithful := rfl
  nesting_le := by decide
  ofVal_toVal := ofVal_toVal_list BranchLike.ofVal_toVal
  cut_toVal entries := Json.cut_list BranchLike.cut_toVal entries
  dates_toVal entries := Json.dates_list BranchLike.dates_toVal entries
  shown_eq coloured now entries := congrArg Display.jsonText (map_toValue BranchLike.toVal entries)
  read_eq text := rfl
  dated body entries h := by
    obtain ⟨answer, hread, rfl⟩ := map_ok_iff.mp h
    have hlisted : List.map BranchLike.toVal (List.map BranchLike.ofVal answer.1) = answer.1 :=
      Json.map_ofVal BranchLike.toVal_ofVal answer.1
    have hdated : (Schema.list BranchLike.schema).Dated answer.1 := fun t ht =>
      Schema.dated_of_read hread t (List.mem_append_left _ ht)
    exact (congrArg (Schema.list BranchLike.schema).Dated hlisted).mpr hdated
  decode_body text cs b htext h := by
    have hread : (Client.branchListSchema.reader Json.maxLevels).Decodes
        ('\x7b' :: (Json.quotedChars "branches" ++ ':' :: ([' '] ++ cs) ++ ['\n'] ++ ['\x7d']))
        (b, ()) :=
      Schema.reader_single _ isSpace_blank Json.blanks_lineBreak (h 126 (by decide))
    refine map_ok_iff.mpr ⟨(b, ()), Json.Document.whole_of_decodes ?_ Json.no_blanks hread, rfl⟩
    show ("\x7b\"branches\": " ++ text ++ "\x7d").toList = _
    rw [String.toList_append, String.toList_append, htext, List.append_nil]
    simp
    rfl

/-- Measures of a component. -/
def measuresPortrait (r : MeasuresRequest) : (measures r).Portrait where
  schema := .list Measure.schema
  toVal := List.map Measure.toVal
  ofVal := List.map Measure.ofVal
  faithful := rfl
  nesting_le := by decide
  ofVal_toVal := ofVal_toVal_list Measure.ofVal_toVal
  cut_toVal ms := Schema.cut_of_timeless (s := .list Measure.schema) rfl _
  dates_toVal ms := Schema.dates_of_timeless (s := .list Measure.schema) rfl _
  shown_eq coloured now ms := congrArg Display.jsonText (map_toValue Measure.toVal ms)
  read_eq text := rfl
  dated body ms h := Schema.dated_of_timeless (s := .list Measure.schema) rfl _
  decode_body text cs b htext h := by
    have hinner : ((Schema.record "ComponentMeasures"
        (.cons (.defaulted "measures") (.list Measure.schema) .nil)).reader 126).Decodes
        ('\x7b' :: (Json.quotedChars "measures" ++ ':' :: ([' '] ++ cs) ++ ['\n'] ++ ['\x7d']))
        (b, ()) :=
      Schema.reader_single _ isSpace_blank Json.blanks_lineBreak (h 125 (by decide))
    have hread : (Client.componentMeasuresSchema.reader Json.maxLevels).Decodes _ ((b, ()), ()) :=
      Schema.reader_single _ Json.no_blanks Json.no_blanks hinner
    refine map_ok_iff.mpr
      ⟨((b, ()), ()), Json.Document.whole_of_decodes ?_ Json.no_blanks hread, rfl⟩
    show ("\x7b\"component\":\x7b\"measures\": " ++ text ++ "\x7d\x7d").toList = _
    rw [String.toList_append, String.toList_append, htext, List.append_nil]
    simp
    rfl

/-- Measures of several projects. -/
def projectMeasuresPortrait (projects metrics : List String) :
    (projectMeasures projects metrics).Portrait where
  schema := .list ProjectMeasure.schema
  toVal := List.map ProjectMeasure.toVal
  ofVal := List.map ProjectMeasure.ofVal
  faithful := rfl
  nesting_le := by decide
  ofVal_toVal := ofVal_toVal_list ProjectMeasure.ofVal_toVal
  cut_toVal ms := Schema.cut_of_timeless (s := .list ProjectMeasure.schema) rfl _
  dates_toVal ms := Schema.dates_of_timeless (s := .list ProjectMeasure.schema) rfl _
  shown_eq coloured now ms := congrArg Display.jsonText (map_toValue ProjectMeasure.toVal ms)
  read_eq text := rfl
  dated body ms h := Schema.dated_of_timeless (s := .list ProjectMeasure.schema) rfl _
  decode_body text cs b htext h := by
    have hread : (Client.projectMeasuresSchema.reader Json.maxLevels).Decodes
        ('\x7b' :: (Json.quotedChars "measures" ++ ':' :: ([' '] ++ cs) ++ ['\n'] ++ ['\x7d']))
        (b, ()) :=
      Schema.reader_single _ isSpace_blank Json.blanks_lineBreak (h 126 (by decide))
    refine map_ok_iff.mpr ⟨(b, ()), Json.Document.whole_of_decodes ?_ Json.no_blanks hread, rfl⟩
    show ("\x7b\"measures\": " ++ text ++ "\x7d").toList = _
    rw [String.toList_append, String.toList_append, htext, List.append_nil]
    simp
    rfl

/-- Measures of a component with what explains them, which have no record around them. -/
def measuresAndMetaPortrait (component : String) (metrics : List String)
    (additional : List (String × String)) :
    (measuresAndMeta component metrics additional).Portrait where
  schema := MeasuresAndMeta.schema
  toVal := MeasuresAndMeta.toVal
  ofVal := MeasuresAndMeta.ofVal
  faithful := rfl
  nesting_le := by decide
  ofVal_toVal := MeasuresAndMeta.ofVal_toVal
  cut_toVal := MeasuresAndMeta.cut_toVal
  dates_toVal := MeasuresAndMeta.dates_toVal
  shown_eq coloured now m := rfl
  read_eq text := rfl
  dated body m h := by
    obtain ⟨answer, hread, rfl⟩ := map_ok_iff.mp h
    rw [MeasuresAndMeta.toVal_ofVal]
    exact Schema.dated_of_read hread
  decode_body text cs b htext h :=
    map_ok_iff.mpr ⟨b, Json.Document.whole_of_decodes htext Json.blanks_lineBreak
      (h Json.maxLevels (by decide)), rfl⟩

/-- Every operation that asks has a portrait. -/
theorem exists_portrait {op : Operation} (h : op.method = .get) : Nonempty op.Portrait := by
  cases op with
  | branches project => exact ⟨branchesPortrait project⟩
  | deleteBranch | renameBranch => nomatch h
  | measures r => exact ⟨measuresPortrait r⟩
  | measuresAndMeta component metrics additional =>
    exact ⟨measuresAndMetaPortrait component metrics additional⟩
  | projectMeasures projects metrics => exact ⟨projectMeasuresPortrait projects metrics⟩

/-- The text that is shown is one document and a line break. It is read as the answer with its dates
cut, by itself and inside the body of a response, and that answer is shown by the same text. -/
theorem echo {op : Operation} {a : op.Answer} (hget : op.method = .get) {body : String}
    (hdecode : op.decode false body = .ok a)
    (hyears : ∀ t ∈ op.dates a, 0 ≤ t.year ∧ t.year ≤ 9999) (coloured : Bool) (now : Instant) :
    let text := op.shown ⟨true, coloured, now⟩ a
    (∃ v : Value, text = v.pretty ++ "\n" ∧ Value.read v.pretty = .ok v.canonical) ∧
      op.readAnswer text = .ok (op.cut a) ∧ op.decode false (op.body text) = .ok (op.cut a) ∧
        ∀ coloured now, op.shown ⟨true, coloured, now⟩ (op.cut a) = text := by
  intro text
  obtain ⟨portrait⟩ := exists_portrait hget
  have hnesting : portrait.schema.nesting ≤ Json.maxLevels :=
    Nat.le_trans portrait.nesting_le (by decide)
  have hdated := portrait.dated body a hdecode
  rw [← portrait.dates_toVal] at hyears
  have htext : text = (portrait.schema.toValue (portrait.toVal a)).pretty ++ "\n" :=
    portrait.shown_eq coloured now a
  have hcut : portrait.ofVal (portrait.schema.cut (portrait.toVal a)) = op.cut a := by
    rw [portrait.cut_toVal, portrait.ofVal_toVal]
  refine ⟨⟨_, htext, Schema.valueRead_shown portrait.faithful hnesting _⟩, ?_, ?_, ?_⟩
  · rw [portrait.read_eq, htext, Schema.read_shown portrait.faithful hnesting hdated hyears, ← hcut]
    rfl
  · rw [← hcut]
    refine portrait.decode_body text _ _ (htext ▸ Value.toList_shown _) fun levels hlevels => ?_
    exact Schema.reader_pretty portrait.faithful hlevels hdated hyears
  · intro coloured now
    rw [portrait.shown_eq, ← portrait.cut_toVal, Schema.toValue_cut, htext]
    rfl

/-- The body of a response is an object. -/
theorem head?_body {op : Operation} (hget : op.method = .get) (coloured : Bool) (now : Instant)
    (a : op.Answer) :
    (op.body (op.shown ⟨true, coloured, now⟩ a)).toList.head? = some '\x7b' := by
  cases op with
  | branches | measures | projectMeasures =>
    unfold body
    rw [String.toList_append, String.toList_append]
    rfl
  | deleteBranch | renameBranch => nomatch hget
  | measuresAndMeta =>
    show (Display.jsonText (.object (MeasuresAndMeta.fields.toMembers a.toVal))).toList.head? = _
    rw [Display.jsonText, Value.toList_shown]
    cases MeasuresAndMeta.fields.toMembers a.toVal <;> rfl

end Operation
end CodeQuality
