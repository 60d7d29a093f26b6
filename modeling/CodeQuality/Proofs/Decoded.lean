import CodeQuality.Proofs.Json.Reread
import CodeQuality.Proofs.Run.Answers

/-!
# What was decoded is decoded again

What the program writes of a timestamp or an entity that it has read is meant for itself, too: it
should read it again. It does, with dates cut to milliseconds, as long as the years of the dates
have four digits in UTC. A timestamp of four digits may denote an instant of the year 10000 or of
the year before 0, because its offset shifts it; what is written of that instant is not read any
more.

* `Entity.dated_of_decode` — all dates of an entity that was decoded exist.
* `Entity.decode_decoded` — when what was decoded is decoded again.
-/

namespace CodeQuality

open Json (Schema)
open Timestamp (FourDigits)

namespace Entity

/-- The entity with its dates cut to milliseconds. -/
def cut (e : Entity) (a : e.Carrier) : e.Carrier := e.ofVal (e.schema.cut (e.toVal a))

/-- All dates of an entity that was decoded exist. -/
theorem dated_of_decode {e : Entity} {document : String} {a : e.Carrier}
    (h : e.decode document = .ok a) : e.schema.Dated (e.toVal a) := by
  obtain ⟨x, hx, rfl⟩ := map_ok_iff.mp h
  have hkept (hback : e.toVal (e.ofVal x) = x) : e.schema.Dated (e.toVal (e.ofVal x)) := by
    rw [hback]
    exact Schema.dated_of_read hx
  -- Either nothing of `x` is lost, or there are no dates in it.
  cases e with
  | branchLike => exact hkept (BranchLike.toVal_ofVal x)
  | branch => exact hkept (Branch.toVal_ofVal x)
  | pullRequest => exact hkept rfl
  | period => exact hkept rfl
  | measuresAndMeta => exact hkept (MeasuresAndMeta.toVal_ofVal x)
  | branchType => exact Schema.dated_of_timeless rfl _
  | branchStatus => exact Schema.dated_of_timeless rfl _
  | pullRequestStatus => exact Schema.dated_of_timeless rfl _
  | measure => exact Schema.dated_of_timeless rfl _
  | measurePeriod => exact Schema.dated_of_timeless rfl _
  | metric => exact Schema.dated_of_timeless rfl _
  | measureComponent => exact Schema.dated_of_timeless rfl _
  | projectMeasure => exact Schema.dated_of_timeless rfl _

/-- What is written of a timestamp that was read is read again, cut to whole milliseconds, exactly
if the year has four digits; and what is written of an entity that was decoded is decoded again
exactly if the years of all its dates have, and then as the entity with its dates cut. -/
theorem decode_decoded (e : Entity) :
    (∀ s t, Timestamp.read? s = some t →
      Timestamp.read? (Timestamp.text t) = if FourDigits t then some t.cutToMillis else none) ∧
    (∀ (document : String) (a : e.Carrier), e.decode document = .ok a →
      ∀ b, e.decode (e.encode a) = .ok b ↔ (∀ t ∈ e.dates a, FourDigits t) ∧ b = e.cut a) := by
  refine ⟨fun s t h => Timestamp.read?_text_eq (Timestamp.valid_of_read? h), ?_⟩
  intro document a h b
  have hread (x : e.schema.Val) : e.schema.read (e.encode a) = .ok x ↔
      (∀ t ∈ e.dates a, FourDigits t) ∧ x = e.schema.cut (e.toVal a) :=
    Schema.read_write_iff e.faithful_schema e.nesting_schema_le (dated_of_decode h)
  rw [decode, map_ok_iff]
  constructor
  · rintro ⟨x, hx, rfl⟩
    obtain ⟨hyears, rfl⟩ := (hread x).mp hx
    exact ⟨hyears, rfl⟩
  · rintro ⟨hyears, rfl⟩
    exact ⟨_, (hread _).mpr ⟨hyears, rfl⟩, rfl⟩

/-- A branch that was analysed a fraction of a second after the beginning of 2017. -/
theorem decode_decoded_branch :
    Timestamp.read? "2017-01-01T01:00:00.1239+0100" = some ⟨1483228800, 123900000⟩ ∧
    Timestamp.read? (Timestamp.text ⟨1483228800, 123900000⟩) = some ⟨1483228800, 123000000⟩ ∧
    Entity.branch.decode "[\"a\",false,null,null,\"2017-01-01T01:00:00.1239+0100\"]" =
      .ok { name := "a", analysisDate := some ⟨1483228800, 123900000⟩ } ∧
    Entity.branch.decode (Entity.branch.encode
      { name := "a", analysisDate := some ⟨1483228800, 123900000⟩ }) =
        .ok { name := "a", analysisDate := some ⟨1483228800, 123000000⟩ } := by
  have htext : Timestamp.read? "2017-01-01T01:00:00.1239+0100" =
      some ⟨1483228800, 123900000⟩ := by decide
  have hdecode : Entity.branch.decode
      "[\"a\",false,null,null,\"2017-01-01T01:00:00.1239+0100\"]" =
        .ok { name := "a", analysisDate := some ⟨1483228800, 123900000⟩ } :=
    toOption_eq_some_iff.mp (by decide +kernel)
  have hyears : ∀ t ∈ Entity.branch.dates
      { name := "a", analysisDate := some ⟨1483228800, 123900000⟩ }, FourDigits t :=
    List.forall_mem_singleton.mpr (by decide)
  obtain ⟨htexts, hentities⟩ := decode_decoded .branch
  exact ⟨htext, htexts _ _ htext, hdecode, (hentities _ _ hdecode _).mpr ⟨hyears, rfl⟩⟩

/-- The last hour of 9999 west of Greenwich is read, and what is written of it is not. -/
theorem not_decode_decoded :
    Timestamp.read? "9999-12-31T23:59:59-01:00" = some ⟨253402304399, 0⟩ ∧
    Timestamp.text ⟨253402304399, 0⟩ = "+10000-01-01T00:59:59.000Z" ∧
    Timestamp.read? "+10000-01-01T00:59:59.000Z" = none := by
  refine ⟨?_, ?_, ?_⟩ <;> decide

end Entity
end CodeQuality
