import CodeQuality.Branch

/-!
# Measures

The records of measure requests: values of metrics, the definitions of metrics and the periods that
values are compared over.
-/

namespace CodeQuality

open Json (Schema Fields Label)

/-- The value of a measure over one period. -/
structure MeasurePeriod where
  index : UInt32
  value : String
  bestValue : Option Bool := none
deriving DecidableEq, Repr

namespace MeasurePeriod

def fields : Fields :=
  .cons (.plain "index") .count <|
  .cons (.plain "value") .text <|
  .cons (.optional "bestValue") (.optional .flag) .nil

def schema : Schema := .record "MeasurePeriod" fields

def ofVal : schema.Val → MeasurePeriod
  | (index, value, bestValue, ()) => ⟨index, value, bestValue⟩

def toVal (p : MeasurePeriod) : schema.Val := (p.index, p.value, p.bestValue, ())

@[simp] theorem ofVal_toVal (p : MeasurePeriod) : ofVal p.toVal = p := rfl

end MeasurePeriod

/-- The value of a metric for a component. -/
structure Measure where
  metric : String
  value : Option String := none
  periods : Option (List MeasurePeriod) := none
  bestValue : Option Bool := none
deriving DecidableEq, Repr

namespace Measure

def fields : Fields :=
  .cons (.plain "metric") .text <|
  .cons (.optional "value") (.optional .text) <|
  .cons (.optional "periods") (.optional (.list MeasurePeriod.schema)) <|
  .cons (.optional "bestValue") (.optional .flag) .nil

def schema : Schema := .record "Measure" fields

def ofVal : schema.Val → Measure
  | (metric, value, periods, bestValue, ()) =>
    ⟨metric, value, Option.map (List.map MeasurePeriod.ofVal) periods, bestValue⟩

def toVal (m : Measure) : schema.Val :=
  (m.metric, m.value, m.periods.map (List.map MeasurePeriod.toVal), m.bestValue, ())

@[simp] theorem ofVal_toVal (m : Measure) : ofVal m.toVal = m := by
  obtain ⟨metric, value, periods, bestValue⟩ := m
  exact congrArg (Measure.mk metric value · bestValue)
    (Json.map_map_cancel MeasurePeriod.ofVal_toVal periods)

/-- The value over the first period with this index. -/
def periodValue? (m : Measure) (index : UInt32) : Option String :=
  (m.periods.bind (·.find? (·.index = index))).map (·.value)

end Measure

/-- The definition of a metric. -/
structure Metric where
  key : String
  name : String
  /-- the type of its values -/
  type : String
  id : Option String := none
  domain : Option String := none
  description : Option String := none
  /-- 1 if higher is better, -1 if lower is better -/
  direction : Option Int32 := none
  qualitative : Option Bool := none
  hidden : Option Bool := none
  custom : Option Bool := none
  decimalScale : Option UInt32 := none
deriving DecidableEq, Repr

namespace Metric

def fields : Fields :=
  .cons (.plain "key") .text <|
  .cons (.plain "name") .text <|
  .cons (.plain "type") .text <|
  .cons (.optional "id") (.optional .text) <|
  .cons (.optional "domain") (.optional .text) <|
  .cons (.optional "description") (.optional .text) <|
  .cons (.optional "direction") (.optional .signed) <|
  .cons (.optional "qualitative") (.optional .flag) <|
  .cons (.optional "hidden") (.optional .flag) <|
  .cons (.optional "custom") (.optional .flag) <|
  .cons (.optional "decimalScale") (.optional .count) .nil

def schema : Schema := .record "Metric" fields

def ofVal : schema.Val → Metric
  | (key, name, type, id, domain, description, direction, qualitative, hidden, custom,
      decimalScale, ()) =>
    ⟨key, name, type, id, domain, description, direction, qualitative, hidden, custom,
      decimalScale⟩

def toVal (m : Metric) : schema.Val :=
  (m.key, m.name, m.type, m.id, m.domain, m.description, m.direction, m.qualitative, m.hidden,
    m.custom, m.decimalScale, ())

@[simp] theorem ofVal_toVal (m : Metric) : ofVal m.toVal = m := rfl

end Metric

/-- A period that values are compared over. -/
structure Period where
  index : UInt32
  mode : String
  date : Option Instant := none
  parameter : Option String := none
deriving DecidableEq, Repr

namespace Period

def fields : Fields :=
  .cons (.plain "index") .count <|
  .cons (.plain "mode") .text <|
  .cons (.optional "date") .date <|
  .cons (.optional "parameter") (.optional .text) .nil

def schema : Schema := .record "Period" fields

def ofVal : schema.Val → Period
  | (index, mode, date, parameter, ()) => ⟨index, mode, date, parameter⟩

def toVal (p : Period) : schema.Val := (p.index, p.mode, p.date, p.parameter, ())

@[simp] theorem ofVal_toVal (p : Period) : ofVal p.toVal = p := rfl

end Period

/-- The component that a request was about, with its measures. -/
structure MeasureComponent where
  key : String
  name : String
  qualifier : String
  description : Option String := none
  measures : List Measure := []
deriving DecidableEq, Repr

namespace MeasureComponent

def fields : Fields :=
  .cons (.plain "key") .text <|
  .cons (.plain "name") .text <|
  .cons (.plain "qualifier") .text <|
  .cons (.optional "description") (.optional .text) <|
  .cons (.defaulted "measures") (.list Measure.schema) .nil

def schema : Schema := .record "MeasureComponent" fields

def ofVal : schema.Val → MeasureComponent
  | (key, name, qualifier, description, measures, ()) =>
    ⟨key, name, qualifier, description, List.map Measure.ofVal measures⟩

def toVal (c : MeasureComponent) : schema.Val :=
  (c.key, c.name, c.qualifier, c.description, c.measures.map Measure.toVal, ())

@[simp] theorem ofVal_toVal (c : MeasureComponent) : ofVal c.toVal = c := by
  have h : Measure.ofVal ∘ Measure.toVal = id := funext Measure.ofVal_toVal
  simp [ofVal, toVal, h]

end MeasureComponent

/-- Measures of a component with what explains them. -/
structure MeasuresAndMeta where
  component : MeasureComponent
  metrics : Option (List Metric) := none
  periods : Option (List Period) := none
deriving DecidableEq, Repr

namespace MeasuresAndMeta

def fields : Fields :=
  .cons (.plain "component") MeasureComponent.schema <|
  .cons (.optional "metrics") (.optional (.list Metric.schema)) <|
  .cons (.optional "periods") (.optional (.list Period.schema)) .nil

def schema : Schema := .record "MeasuresAndMeta" fields

def ofVal : schema.Val → MeasuresAndMeta
  | (component, metrics, periods, ()) =>
    ⟨.ofVal component, Option.map (List.map Metric.ofVal) metrics,
      Option.map (List.map Period.ofVal) periods⟩

def toVal (m : MeasuresAndMeta) : schema.Val :=
  (m.component.toVal, m.metrics.map (List.map Metric.toVal),
    m.periods.map (List.map Period.toVal), ())

@[simp] theorem ofVal_toVal (m : MeasuresAndMeta) : ofVal m.toVal = m := by
  obtain ⟨component, metrics, periods⟩ := m
  have hc := MeasureComponent.ofVal_toVal component
  have hm := Json.map_map_cancel Metric.ofVal_toVal metrics
  have hp := Json.map_map_cancel Period.ofVal_toVal periods
  show MeasuresAndMeta.mk _ _ _ = _
  exact congr (congr (congrArg mk hc) hm) hp

end MeasuresAndMeta

/-- The value of a metric for one of several projects. -/
structure ProjectMeasure where
  component : String
  metric : String
  value : Option String := none
  periods : Option (List MeasurePeriod) := none
deriving DecidableEq, Repr

namespace ProjectMeasure

def fields : Fields :=
  .cons (.plain "component") .text <|
  .cons (.plain "metric") .text <|
  .cons (.optional "value") (.optional .text) <|
  .cons (.optional "periods") (.optional (.list MeasurePeriod.schema)) .nil

def schema : Schema := .record "ProjectMeasure" fields

def ofVal : schema.Val → ProjectMeasure
  | (component, metric, value, periods, ()) =>
    ⟨component, metric, value, Option.map (List.map MeasurePeriod.ofVal) periods⟩

def toVal (m : ProjectMeasure) : schema.Val :=
  (m.component, m.metric, m.value, m.periods.map (List.map MeasurePeriod.toVal), ())

@[simp] theorem ofVal_toVal (m : ProjectMeasure) : ofVal m.toVal = m := by
  obtain ⟨component, metric, value, periods⟩ := m
  exact congrArg (ProjectMeasure.mk component metric value)
    (Json.map_map_cancel MeasurePeriod.ofVal_toVal periods)

end ProjectMeasure
end CodeQuality
