import CodeQuality.Proofs.Call
import CodeQuality.Proofs.Direct
import CodeQuality.Proofs.Url.Below

/-!
# Narrowing a request down

A request for measures may be narrowed down to a branch or to a pull request, either by a name or by
an entry of a listing. A name replaces the name of its own kind that was there before, and an entry
replaces both. So a request is about what the last entry is known by, but for the names behind it,
and nothing that came before that entry is left.

* `BranchLike.KnownBy`, `Json.Value.Scopes` — what an entry is known by, and the value it stands in.
* `MeasuresRequest.LastScope` — the last entry among some steps, and the steps behind it.
* `MeasuresRequest.Asks` — a request with these fields and no others.
* `MeasuresRequest.narrows_run` — what becomes of a request step by step, up to what is sent.
-/

namespace CodeQuality

open Json (Value)

/-! ### Entries -/

/-- Is this what a request names the entry by? A main branch needs no name. -/
inductive BranchLike.KnownBy : BranchLike → Scope → Prop where
  | main {b : Branch} (h : b.isMain = true) : KnownBy (.branch b) {}
  | branch {b : Branch} (h : b.isMain = false) : KnownBy (.branch b) { branch := some b.name }
  | pullRequest (p : PullRequest) : KnownBy (.pullRequest p) { pullRequest := some p.id }

/-- Is this what a request names the entry by that is read from the value? A pull request goes by
whichever of `id` and `key` is there. -/
inductive Json.Value.Scopes (v : Value) : Scope → Prop where
  | main (hbase : v.get? "base" = none) (h : v.part? 1 "isMain" = some (.flag true)) : v.Scopes {}
  | branch {name : String} (hbase : v.get? "base" = none)
    (h : v.part? 1 "isMain" = none ∨ v.part? 1 "isMain" = some (.flag false))
    (hname : v.part? 0 "name" = some (.text name)) : v.Scopes { branch := some name }
  | pullRequest {id : String} (hbase : (v.get? "base").isSome = true)
    (hid : v.HasOneText "id" "key" id) : v.Scopes { pullRequest := some id }

namespace BranchLike

theorem knownBy_scope (entry : BranchLike) : entry.KnownBy entry.scope := by
  cases entry with
  | pullRequest p => exact .pullRequest p
  | branch b =>
    show KnownBy (.branch b) (if b.isMain then {} else { branch := some b.name })
    split
    · next h => exact .main h
    · next h => exact .branch (Bool.eq_false_iff.mpr h)

theorem KnownBy.eq_scope {entry : BranchLike} {scope : Scope} (h : entry.KnownBy scope) :
    scope = entry.scope := by
  cases h with
  | main h => exact (if_pos h).symm
  | branch h => exact (if_neg (Bool.eq_false_iff.mp h)).symm
  | pullRequest => rfl

/-- No entry is known by two names. -/
theorem KnownBy.single {entry : BranchLike} {scope : Scope} (h : entry.KnownBy scope) :
    scope.branch = none ∨ scope.pullRequest = none := by
  cases h with
  | main => exact .inl rfl
  | branch => exact .inr rfl
  | pullRequest => exact .inl rfl

/-- A document that is decoded as an entry has a value that is this entry. -/
theorem isBranchLike_of_decode {document : String} {entry : BranchLike}
    (h : Entity.branchLike.decode document = .ok entry) :
    ∃ v, Value.read document = .ok v ∧ v.IsBranchLike entry := by
  have hread := decode_ok_iff.mp h
  obtain ⟨v, hv⟩ := Json.Schema.value_of_read_fork hread
  obtain ⟨c, hfork⟩ := Json.Schema.read_fork "base" "pull request" PullRequest.schema "branch"
    Branch.schema hv
  have hvalue := mapError_ok_iff.mp (hfork.symm.trans hread)
  exact ⟨v, hv, (ofValue_iff (Value.ordered_of_read hv)).mp hvalue⟩

/-- An entry is known by what stands in the value it is read from. -/
theorem scopes_of_isBranchLike {v : Value} {entry : BranchLike} (h : v.IsBranchLike entry) :
    v.Scopes entry.scope := by
  cases entry with
  | pullRequest p => exact .pullRequest h.1 h.2.id
  | branch b =>
    obtain ⟨hbase, hbranch⟩ := h
    have hmain := hbranch.isMain
    show v.Scopes (if b.isMain then {} else { branch := some b.name })
    cases hpart : v.part? 1 "isMain" with
    | none =>
      rw [hpart] at hmain
      rw [show b.isMain = false from hmain]
      exact .branch hbase (.inl hpart) hbranch.name
    | some w =>
      rw [hpart] at hmain
      obtain rfl : w = .flag b.isMain := hmain
      cases hflag : b.isMain with
      | true => exact .main hbase (hflag ▸ hpart)
      | false => exact .branch hbase (.inr (hflag ▸ hpart)) hbranch.name

end BranchLike

/-! ### Steps -/

namespace MeasuresRequest

/-- A step by which a request is narrowed down. -/
inductive Step where
  | branch (name : String)
  | pullRequest (id : String)
  | scopedTo (entry : BranchLike)

namespace Step

/-- The request behind the step. -/
def take (r : MeasuresRequest) : Step → MeasuresRequest
  | branch name => r.withBranch name
  | pullRequest id => r.withPullRequest id
  | scopedTo entry => r.scopedTo entry

/-- The branch that the step names. -/
def branch? : Step → Option String
  | branch name => some name
  | pullRequest _ | scopedTo _ => none

/-- The pull request that the step names. -/
def pullRequest? : Step → Option String
  | pullRequest id => some id
  | branch _ | scopedTo _ => none

/-- Is the step about no entry? -/
def IsName (step : Step) : Prop := ∀ entry, step ≠ scopedTo entry

theorem isName_branch (name : String) : (branch name).IsName := by
  intro entry h
  nomatch h

theorem isName_pullRequest (id : String) : (pullRequest id).IsName := by
  intro entry h
  nomatch h

end Step

/-- The request behind a sequence of steps. -/
def run (r : MeasuresRequest) (steps : List Step) : MeasuresRequest := steps.foldl Step.take r

/-- Is `scope` what the last entry among the steps is known by, and are `later` the steps behind it?
Where there is no entry, `scope` is what was there at first, and all steps are behind that. -/
inductive LastScope (first : Scope) : List Step → Scope → List Step → Prop where
  | never {steps : List Step} (h : ∀ step ∈ steps, step.IsName) : LastScope first steps first steps
  | last {earlier later : List Step} {entry : BranchLike} {scope : Scope}
    (hscope : entry.KnownBy scope) (h : ∀ step ∈ later, step.IsName) :
    LastScope first (earlier ++ .scopedTo entry :: later) scope later

/-- Is this a request of a client for the measures, where `url` is the URL of its path? It asks for
the fields that are set, in this order and behind what the query of the URL brings in itself. -/
structure Asks (r : MeasuresRequest) (url : Url) (request : Http.Request) : Prop where
  method : request.method = .get
  form : request.form = none
  query : ∃ query, request.url = { Http.bare url with query := some query } ∧
    Form.decode query = Form.decode (url.query.getD []) ++
      [("componentKey", r.component), ("metricKeys", ",".intercalate r.metrics)] ++
      (r.branch.map ("branch", ·)).toList ++ (r.pullRequest.map ("pullRequest", ·)).toList

/-- Is this what a client sends when it asks for the measures? -/
structure Carried (r : MeasuresRequest) (c : Client) (sent : List Http.Request) : Prop where
  noUrl : ∀ e, c.endpoint "/api/measures/component" = .error e → sent = []
  request : ∀ url, c.endpoint "/api/measures/component" = .ok url → ∃ request, r.Asks url request ∧
    sent = if (c.transport request).isSeen then [request] else []
  web : ∀ base, Url.read base = .ok c.baseUrl → c.baseUrl.isWeb = true →
    ∃ url, c.endpoint "/api/measures/component" = .ok url ∧
      (c.baseUrl.query = none → url.query = none)

/-- What becomes of a request step by step, up to what is sent. -/
structure Narrows (start : MeasuresRequest) : Prop where
  keeps : ∀ steps, (start.run steps).component = start.component ∧
    (start.run steps).metrics = start.metrics
  entry : ∀ steps entry, ∃ scope, entry.KnownBy scope ∧
    (scope.branch = none ∨ scope.pullRequest = none) ∧
    (start.run (steps ++ [.scopedTo entry])).branch = scope.branch ∧
    (start.run (steps ++ [.scopedTo entry])).pullRequest = scope.pullRequest
  branch : ∀ steps name,
    start.run (steps ++ [.branch name]) = { start.run steps with branch := some name }
  pullRequest : ∀ steps id,
    start.run (steps ++ [.pullRequest id]) = { start.run steps with pullRequest := some id }
  last : ∀ steps, ∃ scope later, LastScope ⟨start.branch, start.pullRequest⟩ steps scope later ∧
    (start.run steps).branch = (later.filterMap Step.branch?).getLast?.or scope.branch ∧
    (start.run steps).pullRequest =
      (later.filterMap Step.pullRequest?).getLast?.or scope.pullRequest
  forgets : ∀ other : MeasuresRequest, other.component = start.component →
    other.metrics = start.metrics → ∀ earlier earlier' entry later,
    start.run (earlier ++ .scopedTo entry :: later) =
      other.run (earlier' ++ .scopedTo entry :: later)
  document : ∀ steps document entry, Entity.branchLike.decode document = .ok entry →
    ∃ v scope, Value.read document = .ok v ∧ v.Scopes scope ∧
      (start.run (steps ++ [.scopedTo entry])).branch = scope.branch ∧
      (start.run (steps ++ [.scopedTo entry])).pullRequest = scope.pullRequest
  sent : ∀ steps c,
    (start.run steps).Carried c (c.measures (start.run steps)).outcome.2.sent

section Runs

variable {steps later : List Step} {scope : Scope}

theorem keeps_take (r : MeasuresRequest) (step : Step) :
    (step.take r).component = r.component ∧ (step.take r).metrics = r.metrics := by
  cases step <;> exact ⟨rfl, rfl⟩

theorem run_append (r : MeasuresRequest) (earlier later : List Step) :
    r.run (earlier ++ later) = (r.run earlier).run later := List.foldl_append

/-- The component and the metrics are never touched. -/
theorem keeps_run (r : MeasuresRequest) (steps : List Step) :
    (r.run steps).component = r.component ∧ (r.run steps).metrics = r.metrics := by
  induction steps generalizing r with
  | nil => exact ⟨rfl, rfl⟩
  | cons step steps ih =>
    obtain ⟨hcomponent, hmetrics⟩ := ih (step.take r)
    obtain ⟨hcomponent', hmetrics'⟩ := keeps_take r step
    exact ⟨hcomponent.trans hcomponent', hmetrics.trans hmetrics'⟩

/-- Where no entry is among the steps, the last name of each kind counts. -/
theorem scope_run (h : ∀ step ∈ steps, step.IsName) (r : MeasuresRequest) :
    (r.run steps).branch = (steps.filterMap Step.branch?).getLast?.or r.branch ∧
    (r.run steps).pullRequest = (steps.filterMap Step.pullRequest?).getLast?.or r.pullRequest := by
  induction steps generalizing r with
  | nil => exact ⟨rfl, rfl⟩
  | cons step steps ih =>
    obtain ⟨hstep, hsteps⟩ := List.forall_mem_cons.mp h
    obtain ⟨hbranch, hpull⟩ := ih hsteps (step.take r)
    rw [show r.run (step :: steps) = (step.take r).run steps from rfl, hbranch, hpull]
    cases step with
    | branch name =>
      simp [Step.take, Step.branch?, Step.pullRequest?, withBranch, List.getLast?_cons]
    | pullRequest id =>
      simp [Step.take, Step.branch?, Step.pullRequest?, withPullRequest, List.getLast?_cons]
    | scopedTo entry => exact absurd rfl (hstep entry)

/-- An entry leaves nothing of what was there but the component and the metrics. -/
theorem scopedTo_run (r : MeasuresRequest) (earlier : List Step) (entry : BranchLike) :
    (r.run earlier).scopedTo entry = r.scopedTo entry := by
  obtain ⟨hcomponent, hmetrics⟩ := keeps_run r earlier
  unfold scopedTo
  rw [hcomponent, hmetrics]

theorem run_scopedTo (r : MeasuresRequest) (earlier : List Step) (entry : BranchLike)
    (later : List Step) :
    r.run (earlier ++ .scopedTo entry :: later) = (r.scopedTo entry).run later := by
  rw [run_append]
  exact congrArg (run · later) (scopedTo_run r earlier entry)

/-- Either there is an entry among the steps, and then there is a last one, or there is none. -/
theorem exists_lastScope (first : Scope) (steps : List Step) :
    ∃ scope later, LastScope first steps scope later := by
  induction steps with
  | nil => exact ⟨first, [], .never (List.forall_mem_nil _)⟩
  | cons step steps ih =>
    obtain ⟨scope, later, hlast⟩ := ih
    cases hlast with
    | last hscope h =>
      rw [← List.cons_append]
      exact ⟨scope, later, .last hscope h⟩
    | never h =>
      cases step with
      | scopedTo entry =>
        exact ⟨entry.scope, steps,
          (.last entry.knownBy_scope h : LastScope first ([] ++ .scopedTo entry :: steps) _ _)⟩
      | branch name =>
        exact ⟨first, _, .never (List.forall_mem_cons.mpr ⟨Step.isName_branch name, h⟩)⟩
      | pullRequest id =>
        exact ⟨first, _, .never (List.forall_mem_cons.mpr ⟨Step.isName_pullRequest id, h⟩)⟩

/-- What a request is about is what the last entry is known by, but for the names behind it. -/
theorem scope_of_lastScope {r : MeasuresRequest}
    (h : LastScope ⟨r.branch, r.pullRequest⟩ steps scope later) :
    (r.run steps).branch = (later.filterMap Step.branch?).getLast?.or scope.branch ∧
    (r.run steps).pullRequest =
      (later.filterMap Step.pullRequest?).getLast?.or scope.pullRequest := by
  cases h with
  | never h => exact scope_run h r
  | last hscope h =>
    rw [run_scopedTo, hscope.eq_scope]
    exact scope_run h _

end Runs

/-! ### What is sent -/

/-- A request for measures asks for the fields that are set. -/
theorem asks_request (r : MeasuresRequest) (url : Url) :
    r.Asks url ((Operation.measures r).request url) := by
  obtain ⟨query, hquery, hdecode⟩ :=
    Operation.decode_withPairs (Http.bare url) (Operation.measures r).pairs_ne_nil
  refine ⟨rfl, rfl, query, ?_, ?_⟩
  · rw [← hquery]
    rfl
  · rw [hdecode, List.append_assoc, List.append_assoc]
    rfl

/-- What a client sends is one request for these measures, if there is a URL for it. -/
theorem carried_measures (r : MeasuresRequest) (c : Client) :
    r.Carried c (c.measures r).outcome.2.sent := by
  have hends : Action.Ends c.sink (c.measures r) _ _ := (Operation.measures r).ends_perform c
  rw [hends.sent]
  refine ⟨fun e he => ?_, fun url hurl => ⟨_, r.asks_request url, ?_⟩, fun base hread hweb => ?_⟩
  · exact Client.sentTo_of_error he _
  · exact Client.sentTo_of_ok hurl _
  · exact (Operation.measures r).endpoint_of_web hread hweb

/-- A request keeps its component and its metrics. It is about what the last entry is known by,
whatever came before that, and a name behind it replaces the name of its own kind only. What is sent
are the fields that this leaves. -/
theorem narrows_run (start : MeasuresRequest) : start.Narrows where
  keeps := keeps_run start
  entry steps entry := by
    rw [run_scopedTo]
    exact ⟨entry.scope, entry.knownBy_scope, entry.knownBy_scope.single, rfl, rfl⟩
  branch steps name := run_append start steps [.branch name]
  pullRequest steps id := run_append start steps [.pullRequest id]
  last steps := by
    obtain ⟨scope, later, hlast⟩ := exists_lastScope ⟨start.branch, start.pullRequest⟩ steps
    exact ⟨scope, later, hlast, scope_of_lastScope hlast⟩
  forgets other hcomponent hmetrics earlier earlier' entry later := by
    rw [run_scopedTo, run_scopedTo, scopedTo, scopedTo, hcomponent, hmetrics]
  document steps document entry hdecode := by
    obtain ⟨v, hread, hentry⟩ := BranchLike.isBranchLike_of_decode hdecode
    rw [run_scopedTo]
    exact ⟨v, entry.scope, hread, BranchLike.scopes_of_isBranchLike hentry, rfl, rfl⟩
  sent steps := (start.run steps).carried_measures

/-- A pull request that is read from a document without `id` goes by its `key`, and the branch that
was named before is not asked for. -/
theorem narrows_run_key :
    let entry : BranchLike := .pullRequest { base := "main", branch := "b", id := "7", name := "t" }
    let steps : List Step := [.pullRequest "6", .branch "old", .scopedTo entry]
    let start : MeasuresRequest := { component := "demo", metrics := ["bugs", "coverage"] }
    let c : Client :=
      { baseUrl := { scheme := "http".toList, host := some (.domain "host".toList),
                     path := .segments [[]] },
        options := {}, sink := .collector, transport := fun _ => .unanswered }
    Entity.branchLike.decode BranchLike.pullRequestText = .ok entry ∧
      Url.read "http://host" = .ok c.baseUrl ∧
      ∃ request query, (c.measures (start.run steps)).outcome.2.sent = [request] ∧
        request.url.query = some query ∧ Form.decode query =
          [("componentKey", "demo"), ("metricKeys", "bugs,coverage"), ("pullRequest", "7")] := by
  intro entry steps start c
  have hdecode : Entity.branchLike.decode BranchLike.pullRequestText = .ok entry := rfl
  have hbase : Url.read "http://host" = .ok c.baseUrl := by
    apply toOption_eq_some_iff.mp
    decide +kernel
  have hkeys : ",".intercalate start.metrics = "bugs,coverage" := by decide +kernel
  have hnarrows := narrows_run start
  obtain ⟨hcomponent, hmetrics⟩ := hnarrows.keeps steps
  obtain ⟨scope, hscope, -, hbranch, hpull⟩ :=
    hnarrows.entry [.pullRequest "6", .branch "old"] entry
  obtain rfl := hscope.eq_scope
  have hnone : (start.run steps).branch = none := hbranch
  have hkey : (start.run steps).pullRequest = some "7" := hpull
  have hsent := hnarrows.sent steps c
  obtain ⟨url, hurl, hquery⟩ := hsent.web _ hbase rfl
  obtain ⟨request, hasks, hrequest⟩ := hsent.request url hurl
  obtain ⟨query, haddress, hpairs⟩ := hasks.query
  refine ⟨hdecode, hbase, request, query, hrequest, ?_, ?_⟩
  · rw [haddress]
  · rw [hpairs, hquery rfl, hcomponent, hmetrics, hkeys, hnone, hkey]
    rfl

end MeasuresRequest
end CodeQuality
