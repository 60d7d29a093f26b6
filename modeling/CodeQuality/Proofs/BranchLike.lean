import CodeQuality.Proofs.Entity
import CodeQuality.Proofs.Json.Accepts

/-!
# What a branch listing may hold

Which values are branches and which are pull requests, field by field, and that an entry of a
listing is read from a document exactly if the document's value is one of them. The member `base`
alone decides which: with it a value is a pull request or nothing, without it a branch or nothing.

* `Value.IsBranch`, `Value.IsPullRequest` — the values that are accepted, and what they stand for.
* `Branch.ofValue_iff`, `PullRequest.ofValue_iff` — each record accepts exactly these.
* `BranchLike.decode_iff` — the same of a whole document.
-/

namespace CodeQuality

open Json (Schema Fields Label Value Omittable member?)

/-- The type of a branch that is called `name`. -/
def BranchType.named (name : String) : BranchType :=
  if name = "LONG" then .long
  else if name = "SHORT" then .short
  else if name = "BRANCH" then .branch
  else .unknown

namespace Json.Value

/-- The type of a branch: its name, or an object whose only member has that name and the value
null. -/
def IsBranchType (v : Value) (t : BranchType) : Prop :=
  ∃ name, (v = .text name ∨ v = .object [(name, .null)]) ∧ t = BranchType.named name

/-- The findings on a branch. -/
structure IsBranchStatus (v : Value) (s : BranchStatus) : Prop where
  record : v.IsRecord 4
  qualityGate : Omittable (Nullable IsText) none (v.part? 0 "qualityGateStatus") s.qualityGate
  bugs : Omittable (Nullable IsCount) none (v.part? 1 "bugs") s.bugs
  codeSmells : Omittable (Nullable IsCount) none (v.part? 2 "codeSmells") s.codeSmells
  vulnerabilities :
    Omittable (Nullable IsCount) none (v.part? 3 "vulnerabilities") s.vulnerabilities

/-- A branch: an object, or the list of its fields. -/
structure IsBranch (v : Value) (b : Branch) : Prop where
  record : v.IsRecord 6
  name : v.part? 0 "name" = some (.text b.name)
  isMain : Omittable IsFlag false (v.part? 1 "isMain") b.isMain
  type : Omittable (Nullable IsBranchType) none (v.part? 2 "type") b.type
  mergeBranch : Omittable (Nullable IsText) none (v.part? 3 "mergeBranch") b.mergeBranch
  analysisDate : Omittable IsDate none (v.part? 4 "analysisDate") b.analysisDate
  status : Omittable (Nullable IsBranchStatus) none (v.part? 5 "status") b.status

/-- The findings on a pull request. -/
structure IsPullRequestStatus (v : Value) (s : PullRequestStatus) : Prop where
  record : v.IsRecord 3
  bugs : Omittable IsCount 0 (v.part? 0 "bugs") s.bugs
  codeSmells : Omittable IsCount 0 (v.part? 1 "codeSmells") s.codeSmells
  vulnerabilities : Omittable IsCount 0 (v.part? 2 "vulnerabilities") s.vulnerabilities

/-- Exactly one of two members is there, and it is the text `s`. -/
def HasOneText (v : Value) (name other : String) (s : String) : Prop :=
  v.get? name = some (.text s) ∧ v.get? other = none ∨
    v.get? name = none ∧ v.get? other = some (.text s)

/-- A pull request, which only an object can be. -/
structure IsPullRequest (v : Value) (p : PullRequest) : Prop where
  analysisDate : Omittable IsDate none (v.get? "analysisDate") p.analysisDate
  base : v.get? "base" = some (.text p.base)
  branch : v.get? "branch" = some (.text p.branch)
  id : v.HasOneText "id" "key" p.id
  name : v.HasOneText "name" "title" p.name
  status : Omittable IsPullRequestStatus {} (v.get? "status") p.status

/-- An entry of a listing: with the member `base` a pull request, without it a branch. -/
def IsBranchLike (v : Value) : BranchLike → Prop
  | .pullRequest p => (v.get? "base").isSome = true ∧ v.IsPullRequest p
  | .branch b => v.get? "base" = none ∧ v.IsBranch b

end Json.Value

/-! ### Types -/

namespace BranchType

theorem toVal_inj {t t' : BranchType} : t.toVal = t'.toVal ↔ t = t' :=
  ⟨fun h => by rw [← ofVal_toVal t, h, ofVal_toVal], congrArg toVal⟩

theorem tagOf_eq_named (name : String) :
    Json.tagOf ["LONG", "SHORT", "BRANCH"] name = (named name).toVal := by
  unfold named
  split
  · next h => subst h; rfl
  split
  · next h => subst h; rfl
  split
  · next h => subst h; rfl
  · next hl hs hb =>
    refine Json.tagOf_eq_none ?_
    simp only [List.mem_cons, List.not_mem_nil, or_false, not_or]
    exact ⟨hl, hs, hb⟩

theorem ofValue_iff {v : Value} {t : BranchType} :
    schema.ofValue v = .ok t.toVal ↔ v.IsBranchType t := by
  refine Schema.ofValue_tag_iff.trans (exists_congr fun name => and_congr_right fun _ => ?_)
  rw [tagOf_eq_named]
  exact toVal_inj

theorem toVal_ofVal (x : schema.Val) : toVal (ofVal x) = x := by
  match x with
  | some ⟨0, _⟩ => rfl
  | some ⟨1, _⟩ => rfl
  | some ⟨2, _⟩ => rfl
  | none => rfl

end BranchType

theorem Branch.toVal_ofVal (x : schema.Val) : toVal (ofVal x) = x := by
  obtain ⟨name, isMain, type, mergeBranch, analysisDate, status, ⟨⟩⟩ := x
  have htype : Option.map BranchType.toVal (Option.map BranchType.ofVal type) = type := by
    cases type with
    | none => rfl
    | some x => exact congrArg some (BranchType.toVal_ofVal x)
  have hstatus : Option.map BranchStatus.toVal (Option.map BranchStatus.ofVal status) = status := by
    cases status <;> rfl
  exact congr (congrArg (fun type status => (name, isMain, type, mergeBranch, analysisDate, status,
    ())) htype) hstatus

/-! ### Records -/

theorem BranchStatus.ofValue_iff {v : Value} (hv : v.Ordered) {s : BranchStatus} :
    schema.ofValue v = .ok s.toVal ↔ v.IsBranchStatus s := by
  refine (Schema.ofValue_record_iff (by decide) (by decide) hv).trans ?_
  have hgate := (Label.optional "qualityGateStatus").fetches_nullable_text rfl
    (o := v.part? 0 "qualityGateStatus") (a := s.qualityGate)
  have hbugs := (Label.optional "bugs").fetches_nullable_count rfl (o := v.part? 1 "bugs")
    (a := s.bugs)
  have hsmells := (Label.optional "codeSmells").fetches_nullable_count rfl
    (o := v.part? 2 "codeSmells") (a := s.codeSmells)
  have hvulnerabilities := (Label.optional "vulnerabilities").fetches_nullable_count rfl
    (o := v.part? 3 "vulnerabilities") (a := s.vulnerabilities)
  constructor
  · rintro ⟨hrecord, h₀, h₁, h₂, h₃, -⟩
    exact ⟨hrecord, hgate.mp h₀, hbugs.mp h₁, hsmells.mp h₂, hvulnerabilities.mp h₃⟩
  · rintro ⟨hrecord, h₀, h₁, h₂, h₃⟩
    exact ⟨hrecord, hgate.mpr h₀, hbugs.mpr h₁, hsmells.mpr h₂, hvulnerabilities.mpr h₃, trivial⟩

theorem PullRequestStatus.ofValue_iff {v : Value} (hv : v.Ordered) {s : PullRequestStatus} :
    schema.ofValue v = .ok s.toVal ↔ v.IsPullRequestStatus s := by
  refine (Schema.ofValue_record_iff (by decide) (by decide) hv).trans ?_
  have hbugs := (Label.defaulted "bugs").fetches_count rfl (o := v.part? 0 "bugs")
    (a := s.bugs)
  have hsmells := (Label.defaulted "codeSmells").fetches_count rfl
    (o := v.part? 1 "codeSmells") (a := s.codeSmells)
  have hvulnerabilities := (Label.defaulted "vulnerabilities").fetches_count rfl
    (o := v.part? 2 "vulnerabilities") (a := s.vulnerabilities)
  constructor
  · rintro ⟨hrecord, h₀, h₁, h₂, -⟩
    exact ⟨hrecord, hbugs.mp h₀, hsmells.mp h₁, hvulnerabilities.mp h₂⟩
  · rintro ⟨hrecord, h₀, h₁, h₂⟩
    exact ⟨hrecord, hbugs.mpr h₀, hsmells.mpr h₁, hvulnerabilities.mpr h₂, trivial⟩

theorem Branch.ofValue_iff {v : Value} (hv : v.Ordered) {b : Branch} :
    schema.ofValue v = .ok b.toVal ↔ v.IsBranch b := by
  refine (Schema.ofValue_record_iff (by decide) (by decide) hv).trans ?_
  have hname := (Label.plain "name").fetches_text rfl (o := v.part? 0 "name")
    (s := b.name)
  have hmain := (Label.defaulted "isMain").fetches_flag rfl (o := v.part? 1 "isMain")
    (a := b.isMain)
  have htype : (Label.optional "type").Fetches (Schema.optional BranchType.schema).ofValue
      (Schema.optional BranchType.schema).zero (v.part? 2 "type") (b.type.map BranchType.toVal) ↔
      Omittable (Value.Nullable Value.IsBranchType) none (v.part? 2 "type") b.type :=
    Label.fetches_nullable _ rfl _ fun w _ t => BranchType.ofValue_iff
  have hmerge := (Label.optional "mergeBranch").fetches_nullable_text rfl
    (o := v.part? 3 "mergeBranch") (a := b.mergeBranch)
  have hdate := (Label.defaulted "analysisDate").fetches_date rfl
    (o := v.part? 4 "analysisDate") (a := b.analysisDate)
  have hstatus : (Label.optional "status").Fetches (Schema.optional BranchStatus.schema).ofValue
      (Schema.optional BranchStatus.schema).zero (v.part? 5 "status")
      (b.status.map BranchStatus.toVal) ↔
      Omittable (Value.Nullable Value.IsBranchStatus) none (v.part? 5 "status") b.status :=
    Label.fetches_nullable _ rfl _ fun w hw s => BranchStatus.ofValue_iff (hv.part? hw)
  constructor
  · rintro ⟨hrecord, h₀, h₁, h₂, h₃, h₄, h₅, -⟩
    exact ⟨hrecord, hname.mp h₀, hmain.mp h₁, htype.mp h₂, hmerge.mp h₃, hdate.mp h₄,
      hstatus.mp h₅⟩
  · rintro ⟨hrecord, h₀, h₁, h₂, h₃, h₄, h₅⟩
    exact ⟨hrecord, hname.mpr h₀, hmain.mpr h₁, htype.mpr h₂, hmerge.mpr h₃, hdate.mpr h₄,
      hstatus.mpr h₅, trivial⟩

/-- A field with two names makes its text of the only member that has either of them. -/
theorem takes_one_text (label : Label) {other : String} {ms : List (String × Value)}
    (hms : Json.Ordered ms) (halias : label.alias? = some other) (hne : label.name ≠ other)
    (hreq : label.required = true) {s : String} :
    label.Takes Schema.text.ofValue Schema.text.zero (label.own ms) s ↔
      (Value.object ms).HasOneText label.name other s := by
  refine (Label.takes_own_iff_alias hms halias hne hreq).trans ?_
  constructor
  · rintro ⟨v, hv, ⟨h₁, h₂⟩ | ⟨h₁, h₂⟩⟩
    · exact .inl ⟨Schema.ofValue_text_iff.mp hv ▸ h₁, h₂⟩
    · exact .inr ⟨h₁, Schema.ofValue_text_iff.mp hv ▸ h₂⟩
  · rintro (⟨h₁, h₂⟩ | ⟨h₁, h₂⟩)
    · exact ⟨.text s, Schema.ofValue_text_iff.mpr rfl, .inl ⟨h₁, h₂⟩⟩
    · exact ⟨.text s, Schema.ofValue_text_iff.mpr rfl, .inr ⟨h₁, h₂⟩⟩

/-- Only objects come into question for a pull request, as they alone can have the member `base`. -/
theorem PullRequest.ofValue_iff {ms : List (String × Value)} (hv : (Value.object ms).Ordered)
    {p : PullRequest} :
    schema.ofValue (.object ms) = .ok p.toVal ↔ (Value.object ms).IsPullRequest p := by
  obtain ⟨ho, -⟩ := hv.of_object
  refine (Schema.ofValue_object_iff.trans (Fields.holds_iff_each (by decide))).trans ?_
  have hdate := (Label.takes_own_iff ho rfl).trans
    ((Label.defaulted "analysisDate").fetches_date rfl (o := member? "analysisDate" ms)
      (a := p.analysisDate))
  have hbase := (Label.takes_own_iff ho rfl).trans ((Label.plain "base").fetches_text rfl
    (o := member? "base" ms) (s := p.base))
  have hbranch := (Label.takes_own_iff ho rfl).trans
    ((Label.plain "branch").fetches_text rfl (o := member? "branch" ms) (s := p.branch))
  have hid := takes_one_text { name := "id", alias? := some "key" } ho rfl (by decide) rfl
    (s := p.id)
  have hname := takes_one_text { name := "name", alias? := some "title" } ho rfl (by decide) rfl
    (s := p.name)
  have hstatus : (Label.defaulted "status").Takes PullRequestStatus.schema.ofValue
      PullRequestStatus.schema.zero ((Label.defaulted "status").own ms) p.status.toVal ↔
      Omittable Value.IsPullRequestStatus {} (member? "status" ms) p.status :=
    (Label.takes_own_iff ho rfl).trans (Label.fetches_iff rfl
      ⟨congrArg PullRequestStatus.ofVal, congrArg PullRequestStatus.toVal⟩
      fun w hw => PullRequestStatus.ofValue_iff (hv.member? hw))
  constructor
  · rintro ⟨h₀, h₁, h₂, h₃, h₄, h₅, -⟩
    exact ⟨hdate.mp h₀, hbase.mp h₁, hbranch.mp h₂, hid.mp h₃, hname.mp h₄, hstatus.mp h₅⟩
  · rintro ⟨h₀, h₁, h₂, h₃, h₄, h₅⟩
    exact ⟨hdate.mpr h₀, hbase.mpr h₁, hbranch.mpr h₂, hid.mpr h₃, hname.mpr h₄, hstatus.mpr h₅,
      trivial⟩

/-! ### Entries of a listing -/

namespace BranchLike

theorem ofValue_iff {v : Value} (hv : v.Ordered) {e : BranchLike} :
    schema.ofValue v = .ok e.toVal ↔ v.IsBranchLike e := by
  cases e with
  | pullRequest p =>
    refine Schema.ofValue_fork_inl_iff.trans (and_congr_right fun hbase => ?_)
    cases v with
    | object ms => exact PullRequest.ofValue_iff hv
    | _ => nomatch hbase
  | branch b =>
    refine Schema.ofValue_fork_inr_iff.trans (and_congr ?_ (Branch.ofValue_iff hv))
    rw [Option.isSome_eq_false_iff, Option.isNone_iff_eq_none]

theorem toVal_ofVal (x : schema.Val) : toVal (ofVal x) = x := by
  match x with
  | .inl p => rfl
  | .inr b => exact congrArg Sum.inr (Branch.toVal_ofVal b)

/-- A document is read as an entry of a listing exactly if its value is that entry; a document that
is refused is a faulty pull request if it has the member `base`, and a faulty branch if not. -/
theorem decode_iff {document : String} {v : Value} (h : Value.read document = .ok v) :
    (∀ e, Entity.branchLike.decode document = .ok e ↔ v.IsBranchLike e) ∧
    (∀ f, Entity.branchLike.decode document = .error f → ∃ cause, f.cause =
      .badRecord (if (v.get? "base").isSome then "pull request" else "branch") cause) := by
  have hv := Value.ordered_of_read h
  obtain ⟨c, hread⟩ := Schema.read_fork "base" "pull request" PullRequest.schema "branch"
    Branch.schema h
  have hdecode : Entity.branchLike.decode document =
      ((schema.ofValue v).mapError (.standing · c)).map ofVal := congrArg (Except.map ofVal) hread
  rw [hdecode]
  constructor
  · intro e
    rw [map_ok_iff, ← ofValue_iff hv]
    constructor
    · rintro ⟨x, hx, rfl⟩
      rw [toVal_ofVal]
      exact mapError_ok_iff.mp hx
    · exact fun he => ⟨e.toVal, mapError_ok_iff.mpr he, ofVal_toVal e⟩
  · intro f hf
    obtain ⟨cause, hcause, rfl⟩ := mapError_error_iff.mp (map_error_iff.mp hf)
    exact Schema.cause_of_ofValue_fork hcause

/-- A branch that is written as the list of its first fields. -/
theorem decode_iff_list :
    Value.read "[\"main\",true,null,\"trunk\"]" =
      .ok (.list [.text "main", .flag true, .null, .text "trunk"]) ∧
    Entity.branchLike.decode "[\"main\",true,null,\"trunk\"]" =
      .ok (.branch { name := "main", isMain := true, mergeBranch := some "trunk" }) := by
  have hread : Value.read "[\"main\",true,null,\"trunk\"]" =
      .ok (.list [.text "main", .flag true, .null, .text "trunk"]) := rfl
  refine ⟨hread, ((decode_iff hread).1 _).mpr ⟨rfl, ?_⟩⟩
  exact {
    record := show 4 ≤ 6 by decide
    name := rfl
    isMain := rfl
    type := rfl
    mergeBranch := ⟨"trunk", rfl, rfl⟩
    analysisDate := rfl
    status := rfl }

end BranchLike

end CodeQuality
