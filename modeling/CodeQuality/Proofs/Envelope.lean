import CodeQuality.Proofs.Entity
import CodeQuality.Proofs.Json.Texts

/-!
# What the document of a measures request may hold

Which documents are read as the measures of a component with what explains them, field by field and
at every depth, where all records are written as objects. An object may have any other members, in
any order and of any depth: only their names have to be readable.

* `IsMeasure`, `IsMetric`, `IsPeriod`, `IsMeasureComponent` — the texts of the records.
* `IsMeasuresAndMeta` — the documents, with what they stand for.
* `MeasuresAndMeta.decode_iff_madeOf` — these are what is read, and all of it.
-/

namespace CodeQuality

open Json (Schema Value Means NullOr IsList IsObject MustHave MayHave)

/-! ### The texts of the records -/

/-- The value of a measure over one period. -/
structure MeasurePeriod.MadeOf (p : MeasurePeriod) (ps : List (String × List Char)) : Prop where
  index : MustHave "index" (Means Value.IsCount) ps p.index
  value : MustHave "value" (Means Value.IsText) ps p.value
  bestValue : MayHave "bestValue" (NullOr (Means Value.IsFlag)) none ps p.bestValue

def IsMeasurePeriod (w : List Char) (p : MeasurePeriod) : Prop := ∃ ps, IsObject w ps ∧ p.MadeOf ps

/-- The value of a metric. -/
structure Measure.MadeOf (m : Measure) (ps : List (String × List Char)) : Prop where
  metric : MustHave "metric" (Means Value.IsText) ps m.metric
  value : MayHave "value" (NullOr (Means Value.IsText)) none ps m.value
  periods : MayHave "periods" (NullOr (IsList IsMeasurePeriod)) none ps m.periods
  bestValue : MayHave "bestValue" (NullOr (Means Value.IsFlag)) none ps m.bestValue

def IsMeasure (w : List Char) (m : Measure) : Prop := ∃ ps, IsObject w ps ∧ m.MadeOf ps

/-- The definition of a metric. -/
structure Metric.MadeOf (m : Metric) (ps : List (String × List Char)) : Prop where
  key : MustHave "key" (Means Value.IsText) ps m.key
  name : MustHave "name" (Means Value.IsText) ps m.name
  type : MustHave "type" (Means Value.IsText) ps m.type
  id : MayHave "id" (NullOr (Means Value.IsText)) none ps m.id
  domain : MayHave "domain" (NullOr (Means Value.IsText)) none ps m.domain
  description : MayHave "description" (NullOr (Means Value.IsText)) none ps m.description
  direction : MayHave "direction" (NullOr (Means Value.IsSigned)) none ps m.direction
  qualitative : MayHave "qualitative" (NullOr (Means Value.IsFlag)) none ps m.qualitative
  hidden : MayHave "hidden" (NullOr (Means Value.IsFlag)) none ps m.hidden
  custom : MayHave "custom" (NullOr (Means Value.IsFlag)) none ps m.custom
  decimalScale : MayHave "decimalScale" (NullOr (Means Value.IsCount)) none ps m.decimalScale

def IsMetric (w : List Char) (m : Metric) : Prop := ∃ ps, IsObject w ps ∧ m.MadeOf ps

/-- A period that values are compared over. -/
structure Period.MadeOf (p : Period) (ps : List (String × List Char)) : Prop where
  index : MustHave "index" (Means Value.IsCount) ps p.index
  mode : MustHave "mode" (Means Value.IsText) ps p.mode
  date : MayHave "date" (Means Value.IsDate) none ps p.date
  parameter : MayHave "parameter" (NullOr (Means Value.IsText)) none ps p.parameter

def IsPeriod (w : List Char) (p : Period) : Prop := ∃ ps, IsObject w ps ∧ p.MadeOf ps

/-- A component with its measures, which must not be null. -/
structure MeasureComponent.MadeOf (c : MeasureComponent) (ps : List (String × List Char)) :
    Prop where
  key : MustHave "key" (Means Value.IsText) ps c.key
  name : MustHave "name" (Means Value.IsText) ps c.name
  qualifier : MustHave "qualifier" (Means Value.IsText) ps c.qualifier
  description : MayHave "description" (NullOr (Means Value.IsText)) none ps c.description
  measures : MayHave "measures" (IsList IsMeasure) [] ps c.measures

def IsMeasureComponent (w : List Char) (c : MeasureComponent) : Prop :=
  ∃ ps, IsObject w ps ∧ c.MadeOf ps

/-- A component with what explains its measures. -/
structure MeasuresAndMeta.MadeOf (e : MeasuresAndMeta) (ps : List (String × List Char)) :
    Prop where
  component : MustHave "component" IsMeasureComponent ps e.component
  metrics : MayHave "metrics" (NullOr (IsList IsMetric)) none ps e.metrics
  periods : MayHave "periods" (NullOr (IsList IsPeriod)) none ps e.periods

def IsMeasuresAndMeta (w : List Char) (e : MeasuresAndMeta) : Prop :=
  ∃ ps, IsObject w ps ∧ e.MadeOf ps

/-! ### What is read of them -/

section Read

open Json.Label

variable {levels : Nat} {w : List Char} {ps : List (String × List Char)}

theorem MeasurePeriod.fits_iff {x : MeasurePeriod.schema.Val} :
    MeasurePeriod.fields.Fits (·.Meets levels) ps x ↔ (ofVal x).MadeOf ps := by
  obtain ⟨index, value, bestValue, ⟨⟩⟩ := x
  constructor
  · rintro ⟨hindex, hvalue, hbest, -⟩
    exact ⟨must_count_iff.mp hindex, must_text_iff.mp hvalue, may_flag_iff.mp hbest⟩
  · rintro ⟨hindex, hvalue, hbest⟩
    exact ⟨must_count_iff.mpr hindex, must_text_iff.mpr hvalue, may_flag_iff.mpr hbest, trivial⟩

theorem MeasurePeriod.meets_iff {x : MeasurePeriod.schema.Val} :
    MeasurePeriod.schema.Meets (levels + 1) w x ↔ IsMeasurePeriod w (ofVal x) :=
  (Schema.meets_record_iff (by decide)).trans
    (exists_congr fun _ => and_congr_right fun _ => fits_iff)

theorem Measure.fits_iff {x : Measure.schema.Val} :
    Measure.fields.Fits (·.Meets (levels + 2)) ps x ↔ (ofVal x).MadeOf ps := by
  obtain ⟨metric, value, periods, bestValue, ⟨⟩⟩ := x
  have hperiod (w : List Char) (p : MeasurePeriod.schema.Val) :
      MeasurePeriod.schema.Meets (levels + 1) w p ↔ IsMeasurePeriod w (.ofVal p) :=
    MeasurePeriod.meets_iff
  constructor
  · rintro ⟨hmetric, hvalue, hperiods, hbest, -⟩
    exact ⟨must_text_iff.mp hmetric, may_text_iff.mp hvalue, (may_list_iff hperiod).mp hperiods,
      may_flag_iff.mp hbest⟩
  · rintro ⟨hmetric, hvalue, hperiods, hbest⟩
    exact ⟨must_text_iff.mpr hmetric, may_text_iff.mpr hvalue,
      (may_list_iff hperiod).mpr hperiods, may_flag_iff.mpr hbest, trivial⟩

theorem Measure.meets_iff {x : Measure.schema.Val} :
    Measure.schema.Meets (levels + 3) w x ↔ IsMeasure w (ofVal x) :=
  (Schema.meets_record_iff (by decide)).trans
    (exists_congr fun _ => and_congr_right fun _ => fits_iff)

theorem Metric.fits_iff {x : Metric.schema.Val} :
    Metric.fields.Fits (·.Meets levels) ps x ↔ (ofVal x).MadeOf ps := by
  obtain ⟨key, name, type, id, domain, description, direction, qualitative, hidden, custom,
    decimalScale, ⟨⟩⟩ := x
  constructor
  · rintro ⟨hkey, hname, htype, hid, hdomain, hdescription, hdirection, hqualitative, hhidden,
      hcustom, hscale, -⟩
    exact ⟨must_text_iff.mp hkey, must_text_iff.mp hname, must_text_iff.mp htype,
      may_text_iff.mp hid, may_text_iff.mp hdomain, may_text_iff.mp hdescription,
      may_signed_iff.mp hdirection, may_flag_iff.mp hqualitative, may_flag_iff.mp hhidden,
      may_flag_iff.mp hcustom, may_count_iff.mp hscale⟩
  · rintro ⟨hkey, hname, htype, hid, hdomain, hdescription, hdirection, hqualitative, hhidden,
      hcustom, hscale⟩
    exact ⟨must_text_iff.mpr hkey, must_text_iff.mpr hname, must_text_iff.mpr htype,
      may_text_iff.mpr hid, may_text_iff.mpr hdomain, may_text_iff.mpr hdescription,
      may_signed_iff.mpr hdirection, may_flag_iff.mpr hqualitative, may_flag_iff.mpr hhidden,
      may_flag_iff.mpr hcustom, may_count_iff.mpr hscale, trivial⟩

theorem Metric.meets_iff {x : Metric.schema.Val} :
    Metric.schema.Meets (levels + 1) w x ↔ IsMetric w (ofVal x) :=
  (Schema.meets_record_iff (by decide)).trans
    (exists_congr fun _ => and_congr_right fun _ => fits_iff)

theorem Period.fits_iff {x : Period.schema.Val} :
    Period.fields.Fits (·.Meets levels) ps x ↔ (ofVal x).MadeOf ps := by
  obtain ⟨index, mode, date, parameter, ⟨⟩⟩ := x
  constructor
  · rintro ⟨hindex, hmode, hdate, hparameter, -⟩
    exact ⟨must_count_iff.mp hindex, must_text_iff.mp hmode, may_date_iff.mp hdate,
      may_text_iff.mp hparameter⟩
  · rintro ⟨hindex, hmode, hdate, hparameter⟩
    exact ⟨must_count_iff.mpr hindex, must_text_iff.mpr hmode, may_date_iff.mpr hdate,
      may_text_iff.mpr hparameter, trivial⟩

theorem Period.meets_iff {x : Period.schema.Val} :
    Period.schema.Meets (levels + 1) w x ↔ IsPeriod w (ofVal x) :=
  (Schema.meets_record_iff (by decide)).trans
    (exists_congr fun _ => and_congr_right fun _ => fits_iff)

theorem MeasureComponent.fits_iff {x : MeasureComponent.schema.Val} :
    MeasureComponent.fields.Fits (·.Meets (levels + 4)) ps x ↔ (ofVal x).MadeOf ps := by
  obtain ⟨key, name, qualifier, description, measures, ⟨⟩⟩ := x
  have hmeasure (w : List Char) (m : Measure.schema.Val) :
      Measure.schema.Meets (levels + 3) w m ↔ IsMeasure w (.ofVal m) := Measure.meets_iff
  constructor
  · rintro ⟨hkey, hname, hqualifier, hdescription, hmeasures, -⟩
    exact ⟨must_text_iff.mp hkey, must_text_iff.mp hname, must_text_iff.mp hqualifier,
      may_text_iff.mp hdescription, (may_items_iff hmeasure).mp hmeasures⟩
  · rintro ⟨hkey, hname, hqualifier, hdescription, hmeasures⟩
    exact ⟨must_text_iff.mpr hkey, must_text_iff.mpr hname, must_text_iff.mpr hqualifier,
      may_text_iff.mpr hdescription, (may_items_iff hmeasure).mpr hmeasures, trivial⟩

theorem MeasureComponent.meets_iff {x : MeasureComponent.schema.Val} :
    MeasureComponent.schema.Meets (levels + 5) w x ↔ IsMeasureComponent w (ofVal x) :=
  (Schema.meets_record_iff (by decide)).trans
    (exists_congr fun _ => and_congr_right fun _ => fits_iff)

theorem MeasuresAndMeta.fits_iff {x : MeasuresAndMeta.schema.Val} :
    MeasuresAndMeta.fields.Fits (·.Meets (levels + 5)) ps x ↔ (ofVal x).MadeOf ps := by
  obtain ⟨component, metrics, periods, ⟨⟩⟩ := x
  have hcomponent (w : List Char) (c : MeasureComponent.schema.Val) :
      MeasureComponent.schema.Meets (levels + 5) w c ↔ IsMeasureComponent w (.ofVal c) :=
    MeasureComponent.meets_iff
  have hmetric (w : List Char) (m : Metric.schema.Val) :
      Metric.schema.Meets (levels + 4) w m ↔ IsMetric w (.ofVal m) := Metric.meets_iff
  have hperiod (w : List Char) (p : Period.schema.Val) :
      Period.schema.Meets (levels + 4) w p ↔ IsPeriod w (.ofVal p) := Period.meets_iff
  constructor
  · rintro ⟨h, hmetrics, hperiods, -⟩
    exact ⟨(must_iff rfl rfl hcomponent).mp h, (may_list_iff hmetric).mp hmetrics,
      (may_list_iff hperiod).mp hperiods⟩
  · rintro ⟨h, hmetrics, hperiods⟩
    exact ⟨(must_iff rfl rfl hcomponent).mpr h, (may_list_iff hmetric).mpr hmetrics,
      (may_list_iff hperiod).mpr hperiods, trivial⟩

theorem MeasuresAndMeta.meets_iff {x : MeasuresAndMeta.schema.Val} :
    MeasuresAndMeta.schema.Meets (levels + 6) w x ↔ IsMeasuresAndMeta w (ofVal x) :=
  (Schema.meets_record_iff (by decide)).trans
    (exists_congr fun _ => and_congr_right fun _ => fits_iff)

end Read

/-- A document whose records are all objects is read, with all its fields, exactly if it is made of
what the records ask for. -/
theorem MeasuresAndMeta.decode_iff_madeOf {document : String} {e : MeasuresAndMeta} :
    Entity.measuresAndMeta.decode document = .ok e ∧
        MeasuresAndMeta.schema.Unlisted document.toList ↔
      IsMeasuresAndMeta document.toList e := by
  have hmeets (x : MeasuresAndMeta.schema.Val) :
      MeasuresAndMeta.schema.read document = .ok x ∧
          MeasuresAndMeta.schema.Unlisted document.toList ↔
        IsMeasuresAndMeta document.toList (ofVal x) := by
    have hiff : MeasuresAndMeta.schema.Meets Json.maxLevels document.toList x ↔ _ := meets_iff
    rwa [Schema.Meets, Schema.ReadsText, String.ofList_toList] at hiff
  constructor
  · rintro ⟨hdecode, hunlisted⟩
    obtain ⟨x, hx, rfl⟩ := map_ok_iff.mp hdecode
    exact (hmeets x).mp ⟨hx, hunlisted⟩
  · intro h
    obtain ⟨hx, hunlisted⟩ := (hmeets e.toVal).mpr ((ofVal_toVal e).symm ▸ h)
    exact ⟨map_ok_iff.mpr ⟨e.toVal, hx, ofVal_toVal e⟩, hunlisted⟩

end CodeQuality
