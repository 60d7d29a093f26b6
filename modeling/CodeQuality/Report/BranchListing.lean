import CodeQuality.Branch
import CodeQuality.Report.Highlight
import CodeQuality.Table
import CodeQuality.Text.Truncate
import CodeQuality.Time.Age

/-!
# Branch listings

The branches and pull requests of a project as a table: what they are called, of which kind they
are, how they fare, and when they were analysed.
-/

namespace CodeQuality
namespace Report

/-- The kind of a branch. -/
def branchKind (b : Branch) : String :=
  if b.isMain then "main"
  else
    match b.type with
    | some .long => "long"
    | some .short => "short"
    | some .branch => "branch"
    | some .unknown => "unknown"
    | none => "branch"

/-- The kind of an entry; of a pull request, where it is to be merged. -/
def kind : BranchLike → String
  | .branch b => branchKind b
  | .pullRequest p => "pr -> " ++ p.base

/-- A count of things that are called `one`, or `many` unless there is one. -/
def counted (coloured : Bool) (n : UInt32) (one many : String) : String :=
  count coloured n ++ " " ++ (if n = 1 then one else many)

/-- The counts of findings, of which code smells never stand out. -/
def findings (coloured : Bool) (bugs codeSmells vulnerabilities : UInt32) : String :=
  counted coloured bugs "bug" "bugs" ++ ", " ++
    counted coloured vulnerabilities "vulnerability" "vulnerabilities" ++ ", " ++
    counted false codeSmells "code smell" "code smells"

/-- How a branch fares: its quality gate, or else its findings. -/
def branchStatus (coloured : Bool) : Option BranchStatus → String
  | none => "-"
  | some s =>
    match s.qualityGate with
    | some status => gate coloured status
    | none =>
      findings coloured (s.bugs.getD 0) (s.codeSmells.getD 0) (s.vulnerabilities.getD 0)

/-- How an entry fares. -/
def status (coloured : Bool) : BranchLike → String
  | .branch b => branchStatus coloured b.status
  | .pullRequest p =>
    findings coloured p.status.bugs p.status.codeSmells p.status.vulnerabilities

/-- The longest name that is shown whole. -/
def maxName : Nat := 60

/-- The row for an entry. -/
def branchRow (coloured : Bool) (now : Instant) (b : BranchLike) : List String :=
  [Text.truncate b.displayName maxName, kind b, status coloured b,
    Age.ofAnalysis b.analysisDate now]

/-- The listing of a project's branches. -/
def branches (coloured : Bool) (now : Instant) : List BranchLike → String
  | [] => "No branches found.\n"
  | entries =>
    let table : Table :=
      { header := some ["Name", "Type", "Status", "Analyzed"]
        rows := entries.map (branchRow coloured now) }
    table.text ++ "\n"

end Report
end CodeQuality
