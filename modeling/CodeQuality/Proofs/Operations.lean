import CodeQuality.Operations
import CodeQuality.Proofs.Client
import CodeQuality.Proofs.Json.Members
import CodeQuality.Proofs.Url.Form

/-!
# What the operations send

Whatever the texts that an operation is given, a server that reads its request finds just these:
names and values come through the form they are written in, no value brings in a pair of its own,
and the path of the operation stands behind the base of the client.

* `Operation.Passes` — the arguments that a server has to find.
* `Operation.Describes` — the request of an operation.
* `Operation.sent_eq` — an operation sends this request, and no other one.
-/

namespace CodeQuality

/-- What is asked of a server. -/
inductive Operation where
  | branches (project : String)
  | deleteBranch (r : DeleteRequest)
  | renameBranch (project name : String)
  | measures (r : MeasuresRequest)
  | measuresAndMeta (component : String) (metrics : List String)
      (additional : List (String × String))
  | projectMeasures (projects metrics : List String)

namespace Operation

/-- The requests that a server sees when a client carries out the operation. -/
def sent (c : Client) : Operation → List Http.Request
  | branches project => (c.branches project).outcome.2.sent
  | deleteBranch r => (c.deleteBranch r).outcome.2.sent
  | renameBranch project name => (c.renameBranch project name).outcome.2.sent
  | measures r => (c.measures r).outcome.2.sent
  | measuresAndMeta component metrics additional =>
    (c.measuresAndMeta component metrics additional).outcome.2.sent
  | projectMeasures projects metrics => (c.projectMeasures projects metrics).outcome.2.sent

def method : Operation → Http.Method
  | branches _ | measures _ | measuresAndMeta _ _ _ | projectMeasures _ _ => .get
  | deleteBranch _ | renameBranch _ _ => .post

def path : Operation → String
  | branches _ => "/api/project_branches/list"
  | deleteBranch _ => "/api/project_branches/delete"
  | renameBranch _ _ => "/api/project_branches/rename"
  | measures _ | measuresAndMeta _ _ _ => "/api/measures/component"
  | projectMeasures _ _ => "/api/measures/search"

/-- Are these the arguments of the operation? Where the caller adds some, they come in the order of
their names, each name once, and what is found behind a name is what the operation itself has for
it, or else the last thing that was added. -/
def Passes : Operation → List (String × String) → Prop
  | branches project, ps => ps = [("project", project)]
  | deleteBranch r, ps =>
    ps = [("project", r.project)] ++ (r.branch.map ("branch", ·)).toList ++
      (r.pullRequest.map ("pullRequest", ·)).toList
  | renameBranch project name, ps => ps = [("project", project), ("name", name)]
  | measures r, ps =>
    ps = [("componentKey", r.component), ("metricKeys", ",".intercalate r.metrics)] ++
      (r.branch.map ("branch", ·)).toList ++ (r.pullRequest.map ("pullRequest", ·)).toList
  | measuresAndMeta component metrics additional, ps =>
    Json.Ordered ps ∧ ∀ name, Json.member? name ps =
      if name = "componentKey" then some component
      else if name = "metricKeys" then some (",".intercalate metrics)
      else Json.member? name additional.reverse
  | projectMeasures projects metrics, ps =>
    ps = [("projectKeys", ",".intercalate projects), ("metricKeys", ",".intercalate metrics)]

/-- Is this the request of the operation, where `base` is the base of the client? -/
structure Describes (op : Operation) (base : Url) (request : Http.Request) : Prop where
  method : request.method = op.method
  address : ({ request.url with query := none } : Url).text =
    Text.trimEndWhile (· = '/') ({ base with username := [], password := [] } : Url).text ++ op.path
  arguments :
    match op.method with
    | .get => request.form = none ∧
      ∃ query, request.url.query = some query ∧ op.Passes (Form.decode query)
    | .post => request.url.query = none ∧
      ∃ form, request.form = some form ∧ op.Passes (Form.decode form.toList)

/-! ### Arguments -/

/-- The arguments as the client passes them. -/
def pairs : Operation → List (String × String)
  | branches project => [("project", project)]
  | deleteBranch r => r.pairs
  | renameBranch project name => [("project", project), ("name", name)]
  | measures r => r.pairs
  | measuresAndMeta component metrics additional => Client.metaPairs component metrics additional
  | projectMeasures projects metrics =>
    [("projectKeys", joinKeys projects), ("metricKeys", joinKeys metrics)]

theorem metaPairs_ordered (component : String) (metrics : List String)
    (additional : List (String × String)) :
    Json.Ordered (Client.metaPairs component metrics additional) := by
  apply Json.insert_ordered
  apply Json.insert_ordered
  exact Json.sorted_ordered additional

/-- Nothing that is added replaces what the operation itself passes. -/
theorem member?_metaPairs (name component : String) (metrics : List String)
    (additional : List (String × String)) :
    Json.member? name (Client.metaPairs component metrics additional) =
      if name = "componentKey" then some component
      else if name = "metricKeys" then some (",".intercalate metrics)
      else Json.member? name additional.reverse := by
  unfold Client.metaPairs joinKeys
  rw [Json.member?_insert, Json.member?_insert, Json.member?_sorted]
  by_cases hkeys : name = "metricKeys"
  · subst hkeys
    simp
  · by_cases hcomponent : name = "componentKey"
    · subst hcomponent
      simp
    · rw [if_neg (Ne.symm hkeys), if_neg (Ne.symm hcomponent), if_neg hcomponent, if_neg hkeys]

theorem passes_pairs (op : Operation) : op.Passes op.pairs := by
  cases op with
  | branches | renameBranch | projectMeasures | deleteBranch | measures => rfl
  | measuresAndMeta component metrics additional =>
    exact ⟨metaPairs_ordered component metrics additional,
      fun name => member?_metaPairs name component metrics additional⟩

theorem pairs_ne_nil (op : Operation) : op.pairs ≠ [] := by
  cases op with
  | branches | renameBranch | projectMeasures | deleteBranch | measures =>
    exact List.cons_ne_nil _ _
  | measuresAndMeta component metrics additional =>
    -- The component is always there.
    intro h
    have hmember := member?_metaPairs "componentKey" component metrics additional
    rw [show Client.metaPairs component metrics additional = [] from h] at hmember
    nomatch hmember

/-! ### Requests -/

/-- The request of the operation for the URL of its path. -/
def request (op : Operation) (url : Url) : Http.Request :=
  match op.method with
  | .get => .ask url op.pairs
  | .post => .tell url op.pairs

theorem isPath_path (op : Operation) : IsPath op.path := by
  cases op with
  | branches =>
    exact ⟨["api".toList, "project_branches".toList, "list".toList], by decide, rfl, by decide⟩
  | deleteBranch =>
    exact ⟨["api".toList, "project_branches".toList, "delete".toList], by decide, rfl, by decide⟩
  | renameBranch =>
    exact ⟨["api".toList, "project_branches".toList, "rename".toList], by decide, rfl, by decide⟩
  | measures | measuresAndMeta =>
    exact ⟨["api".toList, "measures".toList, "component".toList], by decide, rfl, by decide⟩
  | projectMeasures =>
    exact ⟨["api".toList, "measures".toList, "search".toList], by decide, rfl, by decide⟩

theorem sent_eq_delivered (op : Operation) {c : Client} {url : Url}
    (h : c.endpoint op.path = .ok url) : op.sent c = c.delivered (op.request url) := by
  cases op with
  | branches project =>
    apply Action.Sends.outcome
    apply Action.Sends.bind (c.sends_fetch _ _ h)
    intro listed
    -- In mock mode the samples are noted, which sends nothing either.
    cases c.options.mockMode with
    | false => exact .pure _
    | true => exact .bind (.note _) fun _ => .pure _
  | deleteBranch r => exact Action.Sends.outcome (c.sends_post _ h)
  | renameBranch project name => exact Action.Sends.outcome (c.sends_post _ h)
  | measures r =>
    apply Action.Sends.outcome
    exact Action.Sends.bind (c.sends_fetch _ _ h) fun _ => .pure _
  | measuresAndMeta component metrics additional =>
    apply Action.Sends.outcome
    exact Action.Sends.bind (c.sends_fetch _ _ h) fun _ => .pure _
  | projectMeasures projects metrics =>
    apply Action.Sends.outcome
    exact Action.Sends.bind (c.sends_fetch _ _ h) fun _ => .pure _

/-- Where there is no query, the pairs make the whole one. -/
theorem withPairs_eq {u : Url} (hquery : u.query = none) {pairs : List (String × String)}
    (h : pairs ≠ []) : Http.withPairs u pairs = { u with query := some (Form.encode pairs) } := by
  have hencode : (Form.encode pairs).isEmpty = false := by
    rw [List.isEmpty_eq_false_iff]
    exact Form.encode_ne_nil h
  simp [Http.withPairs, hquery, hencode]

/-- The pairs come behind those that the URL has in its query. -/
theorem decode_withPairs (u : Url) {pairs : List (String × String)} (h : pairs ≠ []) :
    ∃ query, (Http.withPairs u pairs).query = some query ∧
      Form.decode query = Form.decode (u.query.getD []) ++ pairs := by
  have hencode : (Form.encode pairs).isEmpty = false := by
    rw [List.isEmpty_eq_false_iff]
    exact Form.encode_ne_nil h
  unfold Http.withPairs
  generalize u.query.getD [] = old
  cases old with
  | nil =>
    refine ⟨Form.encode pairs, ?_, Form.decode_encode_pairs pairs⟩
    simp [hencode]
  | cons c cs =>
    refine ⟨c :: cs ++ '&' :: Form.encode pairs, ?_, ?_⟩
    · simp [hencode]
    · rw [Form.decode_append, Form.decode_encode_pairs]

/-- What is read from the request of an operation is what was passed. -/
theorem describes_request (op : Operation) {base url : Url} (hfragment : base.fragment = none)
    (hquery : url.query = none)
    (haddress : (Http.bare url).text =
      Text.trimEndWhile (· = '/') (Http.bare base).text ++ op.path) :
    op.Describes base (op.request url) := by
  have hbase : ({ base with username := [], password := [] } : Url) = Http.bare base := by
    rw [Http.bare, ← hfragment]
  have hurl : ({ Http.bare url with query := none } : Url) = Http.bare url := by
    rw [Http.bare, hquery]
  have hpasses : op.Passes (Form.decode (Form.encode op.pairs)) := by
    rw [Form.decode_encode_pairs]
    exact op.passes_pairs
  -- A request that asks has the pairs in its URL, and one that tells has them in its body.
  unfold request
  cases hmethod : op.method with
  | get =>
    have hpairs := withPairs_eq (u := Http.bare url) hquery op.pairs_ne_nil
    refine ⟨hmethod.symm, ?_, ?_⟩
    · rw [hbase, ← haddress, ← hurl]
      simp only [Http.Request.ask, hpairs]
    · rw [hmethod]
      refine ⟨rfl, Form.encode op.pairs, ?_, hpasses⟩
      simp only [Http.Request.ask, hpairs]
  | post =>
    refine ⟨hmethod.symm, ?_, ?_⟩
    · rw [hbase, ← haddress, ← hurl]
      rfl
    · rw [hmethod]
      refine ⟨hquery, Form.text op.pairs, rfl, ?_⟩
      rw [Form.text, String.toList_ofList]
      exact hpasses

/-- A client whose base is a web URL without query and fragment sends one request for an operation,
or none if the server cannot be reached. It goes to the path of the operation behind the base, and
what a server reads from it is what the operation was given. -/
theorem sent_eq (op : Operation) {c : Client} {base : String}
    (hbase : Url.read base = .ok c.baseUrl) (hweb : c.baseUrl.isWeb = true)
    (hquery : c.baseUrl.query = none) (hfragment : c.baseUrl.fragment = none) :
    ∃ request, op.sent c = (if (c.transport request).isSeen then [request] else []) ∧
      op.Describes c.baseUrl request := by
  have hregular := Url.regular_of_read hbase hweb
  obtain ⟨url, hurl, hnone, haddress⟩ :=
    Client.endpoint_eq hregular hquery hfragment op.isPath_path
  exact ⟨op.request url, op.sent_eq_delivered hurl, op.describes_request hfragment hnone haddress⟩

/-- Names with separators in them, and a base with a user and slashes behind it. -/
theorem sent_eq_separators :
    let base : Url :=
      { scheme := "http".toList, username := "me".toList, host := some (.domain "host".toList),
        port := some 9000, path := .segments ["sonar".toList, [], []] }
    let c : Client :=
      { baseUrl := base, options := {}, sink := .collector, transport := fun _ => .unanswered }
    Url.read "http://me@host:9000/sonar//" = .ok base ∧
      ∃ request, (renameBranch "a&name=b" "50% + 1, #").sent c = [request] ∧
        (renameBranch "a&name=b" "50% + 1, #").Describes base request := by
  intro base c
  have hbase : Url.read "http://me@host:9000/sonar//" = .ok base := by
    apply toOption_eq_some_iff.mp
    decide +kernel
  exact ⟨hbase, sent_eq (renameBranch "a&name=b" "50% + 1, #") (c := c) hbase (by decide) rfl rfl⟩

end Operation
end CodeQuality
