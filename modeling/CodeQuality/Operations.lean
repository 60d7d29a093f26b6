import CodeQuality.Client
import CodeQuality.Measure

/-!
# Operations of the server

What can be asked of a server: the branches of a project, with deleting and renaming them, and the
measures of components. Each operation is one call with a fixed path and a list of named arguments;
lists of keys are one argument, with commas between the keys.
-/

namespace CodeQuality

open Json (Schema)

/-- A value that is passed under a name if it is given. -/
def given (name : String) (value : Option String) : List (String × String) :=
  (value.map (name, ·)).toList

/-- Keys with commas between them. -/
def joinKeys (keys : List String) : String := ",".intercalate keys

/-! ### Branches -/

/-- The branch or pull request of a project that is to be deleted. -/
structure DeleteRequest where
  project : String
  branch : Option String := none
  pullRequest : Option String := none
deriving DecidableEq, Repr

namespace DeleteRequest

def ofBranch (project branch : String) : DeleteRequest := { project, branch := some branch }

def ofPullRequest (project pullRequest : String) : DeleteRequest :=
  { project, pullRequest := some pullRequest }

def pairs (r : DeleteRequest) : List (String × String) :=
  ("project", r.project) :: given "branch" r.branch ++ given "pullRequest" r.pullRequest

end DeleteRequest

namespace Client

def listPath : String := "/api/project_branches/list"
def deletePath : String := "/api/project_branches/delete"
def renamePath : String := "/api/project_branches/rename"

/-- The answer to a request for branches. -/
def branchListSchema : Schema :=
  .record "BranchListResponse" (.cons (.plain "branches") (.list BranchLike.schema) .nil)

/-- The branches and pull requests of a project; in mock mode the samples come behind them. -/
def branches (c : Client) (project : String) : Action (List BranchLike) := do
  let (listed, ()) ← c.fetch branchListSchema listPath [("project", project)]
  let listed := List.map BranchLike.ofVal listed
  if c.options.mockMode then
    Action.note
      { severity := .debug, message := "mock mode: appending sample pull requests",
        details := [("project", project)] }
    return listed ++ PullRequest.samples.map .pullRequest
  else return listed

/-- Deletes a branch or a pull request. -/
def deleteBranch (c : Client) (r : DeleteRequest) : Action Unit := c.post deletePath r.pairs

/-- Renames the main branch of a project. -/
def renameBranch (c : Client) (project name : String) : Action Unit :=
  c.post renamePath [("project", project), ("name", name)]

end Client

/-! ### Measures -/

/-- The measures of a component that are wanted. -/
structure MeasuresRequest where
  component : String
  metrics : List String
  branch : Option String := none
  pullRequest : Option String := none
deriving DecidableEq, Repr

namespace MeasuresRequest

def withBranch (r : MeasuresRequest) (branch : String) : MeasuresRequest :=
  { r with branch := some branch }

def withPullRequest (r : MeasuresRequest) (pullRequest : String) : MeasuresRequest :=
  { r with pullRequest := some pullRequest }

/-- The same measures of an entry of the branch listing. -/
def scopedTo (r : MeasuresRequest) (entry : BranchLike) : MeasuresRequest :=
  { r with branch := entry.scope.branch, pullRequest := entry.scope.pullRequest }

def pairs (r : MeasuresRequest) : List (String × String) :=
  ("componentKey", r.component) :: ("metricKeys", joinKeys r.metrics) ::
    (given "branch" r.branch ++ given "pullRequest" r.pullRequest)

end MeasuresRequest

namespace Client

def componentPath : String := "/api/measures/component"
def searchPath : String := "/api/measures/search"

/-- As much of the answer to a request for measures as the measures themselves need. -/
def componentMeasuresSchema : Schema :=
  .record "ComponentMeasuresResponse" (.cons (.plain "component")
    (.record "ComponentMeasures" (.cons (.defaulted "measures") (.list Measure.schema) .nil)) .nil)

/-- The measures of a component. -/
def measures (c : Client) (r : MeasuresRequest) : Action (List Measure) := do
  let ((listed, ()), ()) ← c.fetch componentMeasuresSchema componentPath r.pairs
  return List.map Measure.ofVal listed

/-- The arguments of a request for measures with what explains them: what the caller adds, sorted by
name, and the component and its metrics, which nothing that is added replaces. -/
def metaPairs (component : String) (metrics : List String) (additional : List (String × String)) :
    List (String × String) :=
  Json.insert "metricKeys" (joinKeys metrics)
    (Json.insert "componentKey" component (Json.sorted additional))

/-- The measures of a component with what explains them. -/
def measuresAndMeta (c : Client) (component : String) (metrics : List String)
    (additional : List (String × String)) : Action MeasuresAndMeta := do
  let answer ← c.fetch MeasuresAndMeta.schema componentPath
    (metaPairs component metrics additional)
  return .ofVal answer

/-- The answer to a request for measures of several projects. -/
def projectMeasuresSchema : Schema :=
  .record "ProjectMeasuresResponse" (.cons (.plain "measures") (.list ProjectMeasure.schema) .nil)

/-- Measures of several projects. -/
def projectMeasures (c : Client) (projects metrics : List String) :
    Action (List ProjectMeasure) := do
  let (listed, ()) ← c.fetch projectMeasuresSchema searchPath
    [("projectKeys", joinKeys projects), ("metricKeys", joinKeys metrics)]
  return List.map ProjectMeasure.ofVal listed

end Client
end CodeQuality
