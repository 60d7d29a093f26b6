import CodeQuality.Measure
import CodeQuality.Report.Highlight
import CodeQuality.Table
import CodeQuality.Time.Timestamp

/-!
# Measure listings

Measures as tables: those of one component, those of several projects, and those of a component with
what explains them. The metric `alert_status` is the state of the quality gate and shown as such.
-/

namespace CodeQuality
namespace Report

/-- What is shown for something that is not there. -/
def missing : String := "-"

/-- The value of a metric. -/
def value (coloured : Bool) (metric : String) : Option String → String
  | none => missing
  | some v => if metric = "alert_status" then gate coloured v else v

/-- What is said where no measures are. -/
def noMeasures : String := "No measures found.\n"

/-- The table of `rows` under `header`. -/
def tableText (header : List String) (rows : List (List String)) : String :=
  Table.text { header := some header, rows } ++ "\n"

/-! ### Components and projects -/

/-- The row for a measure; the first period is the one since the last version. -/
def measureRow (coloured : Bool) (m : Measure) : List String :=
  [m.metric, value coloured m.metric m.value, (m.periodValue? 1).getD missing]

/-- The measures of a component. -/
def measures (coloured : Bool) : List Measure → String
  | [] => noMeasures
  | ms => tableText ["Metric", "Value", "Leak period"] (ms.map (measureRow coloured))

/-- The row for a measure of a project. -/
def projectRow (coloured : Bool) (m : ProjectMeasure) : List String :=
  [m.component, m.metric, value coloured m.metric m.value]

/-- The measures of several projects. -/
def projectMeasures (coloured : Bool) : List ProjectMeasure → String
  | [] => noMeasures
  | ms => tableText ["Project", "Metric", "Value"] (ms.map (projectRow coloured))

/-! ### With explanations -/

/-- Name and type of the metric `key`, as far as the definitions tell them. -/
def explain (definitions : List Metric) (key : String) : String × String :=
  match definitions.find? (·.key = key) with
  | some m => (m.name, m.type)
  | none => (key, missing)

/-- The row for a measure under the name of its metric. -/
def explainedRow (coloured : Bool) (definitions : List Metric) (m : Measure) : List String :=
  let (name, type) := explain definitions m.metric
  [name, type, value coloured m.metric m.value]

/-- The day of a period. -/
def periodDay (p : Period) : String :=
  match p.date with
  | some t => String.ofList (Timestamp.dayChars t.date)
  | none => missing

/-- The line for a period. -/
def periodLine (p : Period) : String :=
  "Period " ++ toString p.index.toNat ++ ": " ++ p.mode ++ " " ++ p.parameter.getD "" ++ " (" ++
    periodDay p ++ ")\n"

/-- The title of what is shown of a component. -/
def title (coloured : Bool) (c : MeasureComponent) : String :=
  Style.emphatic.paint coloured (c.name ++ " (" ++ c.key ++ ")") ++ "\n"

/-- The measures of a component with what explains them, as it is printed one after the other. -/
def measuresAndMeta (coloured : Bool) (m : MeasuresAndMeta) : List String :=
  let rows := m.component.measures.map (explainedRow coloured (m.metrics.getD []))
  title coloured m.component :: ((m.component.description.map (· ++ "\n")).toList ++
    "\n" :: tableText ["Metric", "Type", "Value"] rows :: (m.periods.getD []).map periodLine)

end Report
end CodeQuality
