import CodeQuality.Proofs.BranchLike
import CodeQuality.Proofs.Json.Direct

/-!
# Entries read directly

An entry of a listing is read by way of a value, which tells a branch from a pull request. Where it
is known which of the two it is, the record is read straight from the document. Both ways come to
the same if no object in the document repeats a name; they part where one does, because in a value
only the last member of a name is left, while a record refuses a second one.

* `PullRequest.get?_base` — a pull request that is an object is told by its base.
* `BranchLike.decode_direct` — both ways, in both directions.
-/

namespace CodeQuality

open Json (Schema Value member?)

/-- No object in the document repeats a name; what is no document at all repeats none. -/
def Json.Unrepeated (document : String) : Prop :=
  ∀ w, Value.written document = .ok w → w.Distinct

namespace Json

variable {document : String} {v : Value}

/-- A document that repeats no name is read by every schema as its value is. -/
theorem Schema.read_iff_ofValue (s : Schema) (h : Unrepeated document)
    (hv : Value.read document = .ok v) {a : s.Val} :
    s.read document = .ok a ↔ s.ofValue v = .ok a := by
  obtain ⟨w, hw, rfl⟩ := Value.read_ok_iff.mp hv
  exact s.read_ok_iff hw (h w hw)

/-- What a fork reads is a value in any case. -/
theorem Schema.value_of_read_fork {member presentNoun absentNoun : String}
    {present absent : Schema}
    {x : (Schema.fork member presentNoun present absentNoun absent).Val}
    (h : (Schema.fork member presentNoun present absentNoun absent).read document = .ok x) :
    ∃ v, Value.read document = .ok v := by
  obtain ⟨c, d, hread, hfinish⟩ := Document.whole_eq_ok_iff.mp h
  rw [reader_fork] at hread
  obtain ⟨v, e, hv, hstanding⟩ := Reader.of_bind_ok hread
  obtain ⟨-, rfl⟩ := (Reader.Follows.standing _ e).ok_iff.mp hstanding
  exact ⟨v, Document.whole_eq_ok_iff.mpr ⟨_, d, hv, hfinish⟩⟩

end Json

open Json (Unrepeated)

/-- A pull request that is an object has a base. -/
theorem PullRequest.get?_base {ms : List (String × Value)} (hv : (Value.object ms).Ordered)
    {x : PullRequest.schema.Val} (h : PullRequest.schema.ofValue (.object ms) = .ok x) :
    ((Value.object ms).get? "base").isSome = true := by
  have hx := (PullRequest.ofValue_iff hv (p := .ofVal x)).mp h
  rw [hx.base]
  rfl

namespace BranchLike

variable {document : String}

/-- A document is decoded as an entry if the fork reads it. -/
theorem decode_ok_iff {e : BranchLike} :
    Entity.branchLike.decode document = .ok e ↔ schema.read document = .ok e.toVal := by
  refine map_ok_iff.trans ⟨?_, fun h => ⟨_, h, ofVal_toVal e⟩⟩
  rintro ⟨x, hx, rfl⟩
  exact (toVal_ofVal x).symm ▸ hx

/-- An entry of a listing is what is read of it directly, and the other way round: an object that
is read directly as a pull request is that entry, and one that is read as a branch is if it has no
member `base`. -/
theorem decode_direct (h : Unrepeated document) :
    (∀ b, Entity.branchLike.decode document = .ok (.branch b) →
      Entity.branch.decode document = .ok b) ∧
    (∀ p, Entity.branchLike.decode document = .ok (.pullRequest p) →
      Entity.pullRequest.decode document = .ok p) ∧
    (∀ ms, Value.read document = .ok (.object ms) →
      (∀ p, Entity.pullRequest.decode document = .ok p →
        Entity.branchLike.decode document = .ok (.pullRequest p)) ∧
      (∀ b, Entity.branch.decode document = .ok b → member? "base" ms = none →
        Entity.branchLike.decode document = .ok (.branch b))) := by
  refine ⟨fun b hb => ?_, fun p hp => ?_, fun ms hms => ⟨fun p hp => ?_, fun b hb hbase => ?_⟩⟩
  · have hread := decode_ok_iff.mp hb
    obtain ⟨v, hv⟩ := Schema.value_of_read_fork hread
    obtain ⟨-, hbranch⟩ :=
      Schema.ofValue_fork_inr_iff.mp ((schema.read_iff_ofValue h hv).mp hread)
    exact map_ok_iff.mpr
      ⟨_, (Branch.schema.read_iff_ofValue h hv).mpr hbranch, Branch.ofVal_toVal b⟩
  · have hread := decode_ok_iff.mp hp
    obtain ⟨v, hv⟩ := Schema.value_of_read_fork hread
    obtain ⟨-, hpull⟩ :=
      Schema.ofValue_fork_inl_iff.mp ((schema.read_iff_ofValue h hv).mp hread)
    exact map_ok_iff.mpr
      ⟨_, (PullRequest.schema.read_iff_ofValue h hv).mpr hpull, PullRequest.ofVal_toVal p⟩
  · obtain ⟨x, hx, rfl⟩ := map_ok_iff.mp hp
    have hvalue := (PullRequest.schema.read_iff_ofValue h hms).mp hx
    have hbase := PullRequest.get?_base (Value.ordered_of_read hms) hvalue
    exact decode_ok_iff.mpr ((schema.read_iff_ofValue h hms).mpr
      (Schema.ofValue_fork_inl_iff.mpr ⟨hbase, hvalue⟩))
  · obtain ⟨x, hx, rfl⟩ := map_ok_iff.mp hb
    have hvalue := (Branch.schema.read_iff_ofValue h hms).mp hx
    have habsent : ((Value.object ms).get? "base").isSome = false := by
      show (member? "base" ms).isSome = false
      rw [hbase]
      rfl
    refine decode_ok_iff.mpr ((schema.read_iff_ofValue h hms).mpr
      (Schema.ofValue_fork_inr_iff.mpr ⟨habsent, ?_⟩))
    exact (Branch.toVal_ofVal x).symm ▸ hvalue

/-- A pull request behind whose base there is a member that no field covers. -/
def pullRequestText : String :=
  "\x7b\"title\":\"t\",\"key\":\"7\",\"branch\":\"b\",\"base\":\"main\",\"x\":[\x7b\"id\":1\x7d]\x7d"

theorem unrepeated_pullRequestText : Unrepeated pullRequestText := by
  intro w hw
  have hwritten : Value.written pullRequestText =
      .ok (.object [("title", .text "t"), ("key", .text "7"), ("branch", .text "b"),
        ("base", .text "main"), ("x", .list [.object [("id", .number (.integer 1))]])]) := rfl
  obtain rfl := Except.ok.inj (hwritten.symm.trans hw)
  have hlist : (Value.list [.object [("id", .number (.integer 1))]]).Distinct := by
    refine .list fun v hv => ?_
    obtain rfl := List.mem_singleton.mp hv
    refine .object (by decide) fun m hm => ?_
    obtain rfl := List.mem_singleton.mp hm
    exact .number _
  refine .object (by decide) ?_
  simp [Value.Distinct.text, hlist]

/-- It is read in both ways. -/
theorem decode_direct_pullRequest :
    Unrepeated pullRequestText ∧
    Entity.branchLike.decode pullRequestText =
      .ok (.pullRequest { base := "main", branch := "b", id := "7", name := "t" }) ∧
    Entity.pullRequest.decode pullRequestText =
      .ok { base := "main", branch := "b", id := "7", name := "t" } := by
  have hentry : Entity.branchLike.decode pullRequestText =
      .ok (.pullRequest { base := "main", branch := "b", id := "7", name := "t" }) := rfl
  exact ⟨unrepeated_pullRequestText, hentry,
    (decode_direct unrepeated_pullRequestText).2.1 _ hentry⟩

end BranchLike
end CodeQuality
