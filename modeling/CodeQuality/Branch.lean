import CodeQuality.Json.Schema.Reader
import CodeQuality.Json.Schema.Writer

/-!
# Branches and pull requests

The records of a project's branch listing. A listing mixes branches and pull requests without saying
which is which: a record with the member `base` is a pull request, and any other is a branch. A
`BranchLike` is either of them.
-/

namespace CodeQuality

open Json (Schema Fields Label)

/-- How long a branch is meant to live. -/
inductive BranchType where
  | long
  | short
  | branch
  | unknown
deriving DecidableEq, Repr

namespace BranchType

def schema : Schema := .tag ["LONG", "SHORT", "BRANCH"] "UNKNOWN"

def ofVal : schema.Val → BranchType
  | some ⟨0, _⟩ => .long
  | some ⟨1, _⟩ => .short
  | some ⟨2, _⟩ => .branch
  | none => .unknown

def toVal : BranchType → schema.Val
  | .long => some (0 : Fin 3)
  | .short => some (1 : Fin 3)
  | .branch => some (2 : Fin 3)
  | .unknown => (none : Option (Fin 3))

@[simp] theorem ofVal_toVal (t : BranchType) : ofVal t.toVal = t := by cases t <;> rfl

end BranchType

/-- The findings on a branch, as far as they are known. -/
structure BranchStatus where
  qualityGate : Option String := none
  bugs : Option UInt32 := none
  codeSmells : Option UInt32 := none
  vulnerabilities : Option UInt32 := none
deriving DecidableEq, Repr

namespace BranchStatus

def fields : Fields :=
  .cons (.optional "qualityGateStatus") (.optional .text) <|
  .cons (.optional "bugs") (.optional .count) <|
  .cons (.optional "codeSmells") (.optional .count) <|
  .cons (.optional "vulnerabilities") (.optional .count) .nil

def schema : Schema := .record "BranchStatus" fields

def ofVal : schema.Val → BranchStatus
  | (qualityGate, bugs, codeSmells, vulnerabilities, ()) =>
    ⟨qualityGate, bugs, codeSmells, vulnerabilities⟩

def toVal (s : BranchStatus) : schema.Val :=
  (s.qualityGate, s.bugs, s.codeSmells, s.vulnerabilities, ())

@[simp] theorem ofVal_toVal (s : BranchStatus) : ofVal s.toVal = s := rfl

end BranchStatus

/-- A branch of a project. -/
structure Branch where
  name : String
  isMain : Bool := false
  type : Option BranchType := none
  /-- the branch that this one will be merged into -/
  mergeBranch : Option String := none
  analysisDate : Option Instant := none
  status : Option BranchStatus := none
deriving DecidableEq, Repr

namespace Branch

def fields : Fields :=
  .cons (.plain "name") .text <|
  .cons (.defaulted "isMain") .flag <|
  .cons (.optional "type") (.optional BranchType.schema) <|
  .cons (.optional "mergeBranch") (.optional .text) <|
  .cons (.defaulted "analysisDate") .date <|
  .cons (.optional "status") (.optional BranchStatus.schema) .nil

def schema : Schema := .record "Branch" fields

def ofVal : schema.Val → Branch
  | (name, isMain, type, mergeBranch, analysisDate, status, ()) =>
    ⟨name, isMain, Option.map BranchType.ofVal type, mergeBranch, analysisDate,
      Option.map BranchStatus.ofVal status⟩

def toVal (b : Branch) : schema.Val :=
  (b.name, b.isMain, b.type.map BranchType.toVal, b.mergeBranch, b.analysisDate,
    b.status.map BranchStatus.toVal, ())

@[simp] theorem ofVal_toVal (b : Branch) : ofVal b.toVal = b := by
  obtain ⟨name, isMain, type, mergeBranch, analysisDate, status⟩ := b
  cases type <;> cases status <;> simp [ofVal, toVal]

end Branch

/-- The findings on a pull request. -/
structure PullRequestStatus where
  bugs : UInt32 := 0
  codeSmells : UInt32 := 0
  vulnerabilities : UInt32 := 0
deriving DecidableEq, Repr

namespace PullRequestStatus

def fields : Fields :=
  .cons (.defaulted "bugs") .count <|
  .cons (.defaulted "codeSmells") .count <|
  .cons (.defaulted "vulnerabilities") .count .nil

def schema : Schema := .record "PullRequestStatus" fields

def ofVal : schema.Val → PullRequestStatus
  | (bugs, codeSmells, vulnerabilities, ()) => ⟨bugs, codeSmells, vulnerabilities⟩

def toVal (s : PullRequestStatus) : schema.Val := (s.bugs, s.codeSmells, s.vulnerabilities, ())

@[simp] theorem ofVal_toVal (s : PullRequestStatus) : ofVal s.toVal = s := rfl

end PullRequestStatus

/-- A pull request of a project. -/
structure PullRequest where
  analysisDate : Option Instant := none
  /-- the branch that it will be merged into -/
  base : String
  /-- the branch that holds its changes -/
  branch : String
  id : String
  name : String
  status : PullRequestStatus := {}
deriving DecidableEq, Repr

namespace PullRequest

def fields : Fields :=
  .cons (.defaulted "analysisDate") .date <|
  .cons (.plain "base") .text <|
  .cons (.plain "branch") .text <|
  .cons { name := "id", alias? := some "key" } .text <|
  .cons { name := "name", alias? := some "title" } .text <|
  .cons (.defaulted "status") PullRequestStatus.schema .nil

def schema : Schema := .record "PullRequest" fields

def ofVal : schema.Val → PullRequest
  | (analysisDate, base, branch, id, name, status, ()) =>
    ⟨analysisDate, base, branch, id, name, PullRequestStatus.ofVal status⟩

def toVal (p : PullRequest) : schema.Val :=
  (p.analysisDate, p.base, p.branch, p.id, p.name, p.status.toVal, ())

@[simp] theorem ofVal_toVal (p : PullRequest) : ofVal p.toVal = p := rfl

/-- Three pull requests for demonstrations, in the order in which they are listed. The last one is
to be merged into a branch that does not exist. -/
def samples : List PullRequest :=
  [{ analysisDate := some ⟨1483315200, 0⟩, base := "master", branch := "feature/stas/pr-api",
     id := "2734", name := "SONAR-10374 Support pull request in the web app",
     status := { bugs := 1, codeSmells := 3, vulnerabilities := 0 } },
   { analysisDate := some ⟨1483315200, 0⟩, base := "branch-6.7",
     branch := "feature/stas/my-bug-fix", id := "2725", name := "fix critical LTS issue" },
   { analysisDate := some ⟨1483315200, 0⟩, base := "unknown-branch",
     branch := "feature/stas/unknown-branch", id := "9999", name := "create orphan pull request" }]

end PullRequest

/-- What a request about one branch or pull request names it by; a main branch needs no name. -/
structure Scope where
  branch : Option String := none
  pullRequest : Option String := none
deriving DecidableEq, Repr

/-- An entry of a branch listing. -/
inductive BranchLike where
  | pullRequest (pullRequest : PullRequest)
  | branch (branch : Branch)
deriving DecidableEq, Repr

namespace BranchLike

def schema : Schema := .fork "base" "pull request" PullRequest.schema "branch" Branch.schema

def ofVal : schema.Val → BranchLike
  | .inl p => .pullRequest (.ofVal p)
  | .inr b => .branch (.ofVal b)

def toVal : BranchLike → schema.Val
  | .pullRequest p => .inl p.toVal
  | .branch b => .inr b.toVal

@[simp] theorem ofVal_toVal (b : BranchLike) : ofVal b.toVal = b := by
  cases b <;> simp [ofVal, toVal]

/-- The text by which a user knows the entry. -/
def displayName : BranchLike → String
  | .branch b => b.name
  | .pullRequest p => p.id ++ " - " ++ p.name

def isMain : BranchLike → Bool
  | .branch b => b.isMain
  | .pullRequest _ => false

def isPullRequest : BranchLike → Bool
  | .branch _ => false
  | .pullRequest _ => true

def analysisDate : BranchLike → Option Instant
  | .branch b => b.analysisDate
  | .pullRequest p => p.analysisDate

/-- What a request about the entry names it by. -/
def scope : BranchLike → Scope
  | .branch b => if b.isMain then {} else { branch := some b.name }
  | .pullRequest p => { pullRequest := some p.id }

end BranchLike
end CodeQuality
