import CodeQuality.Report.BranchListing
import CodeQuality.Report.MeasureListing
import CodeQuality.Run.Basic

/-!
# Tasks for a server

What a run asks of a server, and how it shows the answer. Without a server, without a project, or
without a confirmation where one is needed, nothing is asked; without an answer, nothing is shown.
-/

namespace CodeQuality

/-- What is shown of something: a value in JSON, or texts that are printed one after the other. -/
structure Exhibit where
  value : Json.Value
  texts : List String

/-- How a run shows what it has found. -/
structure Display where
  json : Bool
  coloured : Bool
  now : Instant

namespace Display

/-- Prints what is shown of something. -/
def print (d : Display) (e : Exhibit) : Command Unit :=
  if d.json then Command.printJson e.value else e.texts.forM Command.print

/-- What is shown when something has been done. -/
def done (d : Display) (message : String) : Exhibit :=
  let check := ({ colour := some .green, bold := true } : Style).paint d.coloured "✓"
  ⟨.object [("success", .flag true)], [check ++ " " ++ message ++ "\n"]⟩

def branches (d : Display) (entries : List BranchLike) : Exhibit :=
  ⟨.list (entries.map fun b => BranchLike.schema.toValue b.toVal),
    [Report.branches d.coloured d.now entries]⟩

def measures (d : Display) (ms : List Measure) : Exhibit :=
  ⟨.list (ms.map fun m => Measure.schema.toValue m.toVal), [Report.measures d.coloured ms]⟩

def measuresAndMeta (d : Display) (m : MeasuresAndMeta) : Exhibit :=
  ⟨MeasuresAndMeta.schema.toValue m.toVal, Report.measuresAndMeta d.coloured m⟩

def projectMeasures (d : Display) (ms : List ProjectMeasure) : Exhibit :=
  ⟨.list (ms.map fun m => ProjectMeasure.schema.toValue m.toVal),
    [Report.projectMeasures d.coloured ms]⟩

end Display

namespace DeleteTarget

/-- The request that deletes the target. -/
def request (t : DeleteTarget) (project : String) : DeleteRequest :=
  match t with
  | branch name => .ofBranch project name
  | pullRequest id => .ofPullRequest project id

/-- The target in words. -/
def text : DeleteTarget → String
  | branch name => "branch " ++ name
  | pullRequest id => "pull request " ++ id

end DeleteTarget

namespace ServerTask

/-- The name under which more about the measures is asked for. -/
def additionalFields : String := "additionalFields"

/-- The arguments that are added to a request for measures with what explains them: what explains
them, unless the caller says what is wanted. -/
def withDefaults (additional : List (String × String)) : List (String × String) :=
  if additional.any (·.1 = additionalFields) then additional
  else (additionalFields, "metrics,periods") :: additional

/-- Asks the server what the task is about, and shows the answer. -/
def ask (o : GlobalOptions) (s : Settings) (d : Display) (c : Client) : ServerTask → Command Unit
  | listBranches => do
    let project ← Command.require (o.projectOf s)
    let entries ← Command.call (c.branches project)
    d.print (d.branches entries)
  | deleteBranch target confirmed => do
    let project ← Command.require (o.projectOf s)
    unless confirmed do throw .unconfirmed
    Command.call (c.deleteBranch (target.request project))
    d.print (d.done ("Deleted " ++ target.text ++ " of " ++ project))
  | renameBranch name => do
    let project ← Command.require (o.projectOf s)
    Command.call (c.renameBranch project name)
    d.print (d.done ("Renamed main branch of " ++ project ++ " to " ++
      Style.cyan.paint d.coloured name))
  | measures component metrics branch pullRequest => do
    let component ← Command.require (component.elim (o.projectOf s) pure)
    let ms ← Command.call (c.measures { component, metrics, branch, pullRequest })
    d.print (d.measures ms)
  | measuresAndMeta component metrics additional => do
    let component ← Command.require (component.elim (o.projectOf s) pure)
    let m ← Command.call (c.measuresAndMeta component metrics (withDefaults additional))
    d.print (d.measuresAndMeta m)
  | projectMeasures projects metrics => do
    let ms ← Command.call (c.projectMeasures projects metrics)
    d.print (d.projectMeasures ms)

/-- The command for a task. -/
def run (s : Surroundings) (o : GlobalOptions) (task : ServerTask) : Command Unit := do
  let settings ← Command.require s.loadSettings
  let client ← Command.require (o.client settings s.transport)
  task.ask o settings ⟨o.json, s.coloured, s.now⟩ client

end ServerTask
end CodeQuality
