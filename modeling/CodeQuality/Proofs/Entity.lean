import CodeQuality.Measure
import CodeQuality.Proofs.Json.RoundTrip

/-!
# Entities

An `Entity` is a kind of record or name that travels between the program and the server. All of
them are written and read by a schema of their own, and all these schemas are faithful, so that what
is written of an entity is read as that same entity. Of the entries of a branch listing only the
inside is written; that a branch does not come back as a pull request, nor the other way round, is
part of the statement.

* `Entity.decode_encode` — reading what was written.
-/

namespace CodeQuality

open Json (Schema)

/-- The kinds of data that are exchanged with the server. -/
inductive Entity where
  | branchLike
  | branch
  | branchType
  | branchStatus
  | pullRequest
  | pullRequestStatus
  | measure
  | measurePeriod
  | metric
  | period
  | measureComponent
  | measuresAndMeta
  | projectMeasure
deriving DecidableEq, Repr

namespace Entity

/-- What an entity of this kind is. -/
abbrev Carrier : Entity → Type
  | branchLike => BranchLike
  | branch => Branch
  | branchType => BranchType
  | branchStatus => BranchStatus
  | pullRequest => PullRequest
  | pullRequestStatus => PullRequestStatus
  | measure => Measure
  | measurePeriod => MeasurePeriod
  | metric => Metric
  | period => Period
  | measureComponent => MeasureComponent
  | measuresAndMeta => MeasuresAndMeta
  | projectMeasure => ProjectMeasure

def schema : Entity → Schema
  | branchLike => BranchLike.schema
  | branch => Branch.schema
  | branchType => BranchType.schema
  | branchStatus => BranchStatus.schema
  | pullRequest => PullRequest.schema
  | pullRequestStatus => PullRequestStatus.schema
  | measure => Measure.schema
  | measurePeriod => MeasurePeriod.schema
  | metric => Metric.schema
  | period => Period.schema
  | measureComponent => MeasureComponent.schema
  | measuresAndMeta => MeasuresAndMeta.schema
  | projectMeasure => ProjectMeasure.schema

def toVal : (e : Entity) → e.Carrier → e.schema.Val
  | branchLike => BranchLike.toVal
  | branch => Branch.toVal
  | branchType => BranchType.toVal
  | branchStatus => BranchStatus.toVal
  | pullRequest => PullRequest.toVal
  | pullRequestStatus => PullRequestStatus.toVal
  | measure => Measure.toVal
  | measurePeriod => MeasurePeriod.toVal
  | metric => Metric.toVal
  | period => Period.toVal
  | measureComponent => MeasureComponent.toVal
  | measuresAndMeta => MeasuresAndMeta.toVal
  | projectMeasure => ProjectMeasure.toVal

def ofVal : (e : Entity) → e.schema.Val → e.Carrier
  | branchLike => BranchLike.ofVal
  | branch => Branch.ofVal
  | branchType => BranchType.ofVal
  | branchStatus => BranchStatus.ofVal
  | pullRequest => PullRequest.ofVal
  | pullRequestStatus => PullRequestStatus.ofVal
  | measure => Measure.ofVal
  | measurePeriod => MeasurePeriod.ofVal
  | metric => Metric.ofVal
  | period => Period.ofVal
  | measureComponent => MeasureComponent.ofVal
  | measuresAndMeta => MeasuresAndMeta.ofVal
  | projectMeasure => ProjectMeasure.ofVal

theorem ofVal_toVal : ∀ (e : Entity) (a : e.Carrier), e.ofVal (e.toVal a) = a
  | branchLike => BranchLike.ofVal_toVal
  | branch => Branch.ofVal_toVal
  | branchType => BranchType.ofVal_toVal
  | branchStatus => BranchStatus.ofVal_toVal
  | pullRequest => PullRequest.ofVal_toVal
  | pullRequestStatus => PullRequestStatus.ofVal_toVal
  | measure => Measure.ofVal_toVal
  | measurePeriod => MeasurePeriod.ofVal_toVal
  | metric => Metric.ofVal_toVal
  | period => Period.ofVal_toVal
  | measureComponent => MeasureComponent.ofVal_toVal
  | measuresAndMeta => MeasuresAndMeta.ofVal_toVal
  | projectMeasure => ProjectMeasure.ofVal_toVal

/-- The dates of an entity. -/
def dates (e : Entity) (a : e.Carrier) : List Instant := e.schema.dates (e.toVal a)

/-- The text that an entity is written as, without blanks. -/
def encode (e : Entity) (a : e.Carrier) : String := e.schema.write (e.toVal a)

/-- The entity that a document describes. -/
def decode (e : Entity) (document : String) : Except Json.Failure e.Carrier :=
  (e.schema.read document).map e.ofVal

theorem faithful_schema (e : Entity) : e.schema.faithful = true := by
  cases e <;> decide

theorem nesting_schema_le (e : Entity) : e.schema.nesting ≤ Json.maxLevels := by
  cases e <;> decide

/-- What is written of an entity is read as that entity, if its dates are whole milliseconds of the
years 0 to 9999. -/
theorem decode_encode (e : Entity) (a : e.Carrier)
    (h : ∀ t ∈ e.dates a, Timestamp.Exact t) : e.decode (e.encode a) = .ok a := by
  have hread := Schema.read_write e.faithful_schema e.nesting_schema_le h
  rw [decode, encode, hread]
  exact congrArg Except.ok (e.ofVal_toVal a)

/-- A branch that was analysed within the leap second at the end of 2016. -/
theorem decode_encode_leapSecond :
    (∀ t ∈ branchLike.dates
      (.branch { name := "base \"1\"", analysisDate := some ⟨1483228799, 1123000000⟩ }),
        Timestamp.Exact t) ∧
    branchLike.decode (branchLike.encode
      (.branch { name := "base \"1\"", analysisDate := some ⟨1483228799, 1123000000⟩ })) =
        .ok (.branch { name := "base \"1\"", analysisDate := some ⟨1483228799, 1123000000⟩ }) := by
  have hexact : ∀ t ∈ branchLike.dates
      (.branch { name := "base \"1\"", analysisDate := some ⟨1483228799, 1123000000⟩ }),
        Timestamp.Exact t := by
    intro t ht
    obtain rfl : t = ⟨1483228799, 1123000000⟩ := List.mem_singleton.mp ht
    exact ⟨by decide, by decide, by decide, by decide⟩
  exact ⟨hexact, decode_encode branchLike _ hexact⟩

end Entity
end CodeQuality
