import CodeQuality.Proofs.Operations

/-!
# What becomes of a call

A call ends in one of few ways. Its path may be none behind the base of the client, the server may
be out of reach or give no answer, it may refuse, and its answer may not be what was asked for;
otherwise the call gives what it has read from the answer. Whichever way it is, the call has sent
what a server could take of its one request, and has told the sink its error if it has one.

* `Action.Ends` — result, requests and reports of an action, whatever has been going on before.
* `Client.answer`, `Client.course` — the result of a call, and the ways it can go.
* `Client.ends_fetch`, `Client.ends_post` — the two kinds of calls.
* `Operation.ends_perform` — the operations.
-/

namespace CodeQuality

/-! ### Traces -/

/-- The remark that a request is about to be sent. -/
def Event.sending (method : Http.Method) (url : Url) : Event :=
  { severity := .debug, message := "sending request",
    details := [("method", method.text), ("url", url.text)] }

/-- The error of a result, if it is one. -/
def errorsOf {ε α : Type} : Except ε α → List ε
  | .ok _ => []
  | .error e => [e]

namespace Sink

/-- What is told a sink of errors that are collected. -/
def collected : Sink → List ApiError → List ApiError
  | collector, errors => errors
  | logger, _ => []

/-- What is logged by a sink for errors. -/
def logged : Sink → List ApiError → List Event
  | collector, _ => []
  | logger, errors => errors.map Event.ofError

theorem collected_append (sink : Sink) (errors others : List ApiError) :
    sink.collected (errors ++ others) = sink.collected errors ++ sink.collected others := by
  cases sink <;> rfl

theorem logged_append (sink : Sink) (errors others : List ApiError) :
    sink.logged (errors ++ others) = sink.logged errors ++ sink.logged others := by
  cases sink with
  | collector => rfl
  | logger => exact List.map_append

end Sink

/-- Has a journal `j` become `j'` by these requests and by reporting these errors, and by nothing
else but remarks? -/
structure Journal.Grows (sink : Sink) (requests : List Http.Request) (errors : List ApiError)
    (j j' : Journal) : Prop where
  sent : j'.sent = j.sent ++ requests
  reported : j'.reported = j.reported ++ sink.collected errors
  alarms : j'.alarms = j.alarms ++ sink.logged errors

namespace Journal

variable {sink : Sink} {requests more : List Http.Request} {errors others : List ApiError}
  {j j' j'' : Journal}

theorem Grows.refl (sink : Sink) (j : Journal) : j.Grows sink [] [] j := by
  cases sink <;> exact ⟨by simp, by simp [Sink.collected], by simp [Sink.logged]⟩

theorem Grows.trans (h : Grows sink requests errors j j') (h' : Grows sink more others j' j'') :
    Grows sink (requests ++ more) (errors ++ others) j j'' := by
  obtain ⟨hsent, hreported, halarms⟩ := h
  obtain ⟨hsent', hreported', halarms'⟩ := h'
  refine ⟨?_, ?_, ?_⟩
  · rw [hsent', hsent, List.append_assoc]
  · rw [hreported', hreported, Sink.collected_append, List.append_assoc]
  · rw [halarms', halarms, Sink.logged_append, List.append_assoc]

theorem grows_deliver (sink : Sink) (request : Http.Request) (j : Journal) :
    Grows sink [request] [] j (j.deliver request) := by
  cases sink <;>
    exact ⟨rfl, by simp [deliver, Sink.collected], by simp [deliver, alarms, Sink.logged]⟩

/-- A remark is no alarm. -/
theorem grows_note (sink : Sink) {event : Event} (h : event.severity = .debug) (j : Journal) :
    Grows sink [] [] j (j.note event) := by
  cases sink <;>
    exact ⟨by simp [note], by simp [note, Sink.collected],
      by simp [note, alarms, Sink.logged, h]⟩

/-- A failed call is logged as a warning or as an error. -/
theorem severity_ofError (e : ApiError) :
    (Event.ofError e).severity = .warning ∨ (Event.ofError e).severity = .error := by
  unfold Event.ofError
  split
  · split
    · exact .inl rfl
    · exact .inr rfl
  · exact .inr rfl

theorem grows_report (sink : Sink) (e : ApiError) (j : Journal) :
    Grows sink [] [e] j (j.report sink e) := by
  cases sink with
  | collector => exact ⟨by simp [report], rfl, by simp [report, alarms, Sink.logged]⟩
  | logger =>
    refine ⟨by simp [report, note], by simp [report, note, Sink.collected], ?_⟩
    simp [report, note, alarms, Sink.logged, severity_ofError e]

end Journal

namespace Action

variable {α β : Type} {sink : Sink} {x : Action α} {f : α → Action β} {result : Except ApiError α}
  {requests : List Http.Request}

/-- Whatever journal there is, the action gives `result`, adds `requests` to those that were sent,
and reports to `sink` what it fails with. -/
def Ends (sink : Sink) (x : Action α) (result : Except ApiError α) (requests : List Http.Request) :
    Prop :=
  ∀ j : Journal, ∃ j' : Journal, x.run j = (result, j') ∧
    j.Grows sink requests (errorsOf result) j'

theorem Ends.pure (sink : Sink) (a : α) : Ends sink (Pure.pure a) (.ok a) [] :=
  fun j => ⟨j, rfl, .refl sink j⟩

theorem Ends.note (sink : Sink) {event : Event} (h : event.severity = .debug) :
    Ends sink (Action.note event) (.ok ()) [] :=
  fun j => ⟨_, rfl, Journal.grows_note sink h j⟩

/-- What comes behind a call may make something else of its value. -/
theorem Ends.bind {g : α → β} (hx : Ends sink x result requests)
    (hf : ∀ a, Ends sink (f a) (.ok (g a)) []) :
    Ends sink (x >>= f) (result.map g) requests := by
  intro j
  obtain ⟨j', hrun, hgrows⟩ := hx j
  rw [run_bind, hrun]
  cases result with
  | error e => exact ⟨j', rfl, hgrows⟩
  | ok a =>
    obtain ⟨j'', hrun', hgrows'⟩ := hf a j'
    rw [← List.append_nil requests]
    exact ⟨j'', hrun', hgrows.trans hgrows'⟩

/-- What an action that ends so has sent. -/
theorem Ends.sent (hx : Ends sink x result requests) : x.outcome.2.sent = requests := by
  obtain ⟨journal, hrun, hgrows⟩ := hx {}
  unfold outcome
  rw [hrun]
  exact hgrows.sent.trans (List.nil_append _)

/-- What is made of the value of a call changes nothing else. -/
theorem Ends.map (g : α → β) (hx : Ends sink x result requests) :
    Ends sink (g <$> x) (result.map g) requests := by
  rw [map_eq_pure_bind]
  exact hx.bind fun a => .pure sink (g a)

end Action

/-! ### Calls -/

namespace Client

variable {α β : Type}

/-- What becomes of a call: what `read` makes of the body of the answer, or why there is none. -/
def answer (c : Client) (path : String) (request : Url → Http.Request)
    (read : String → Except Json.Failure α) : Except ApiError α :=
  match c.endpoint path with
  | .error e => .error e
  | .ok url =>
    match c.transport (request url) with
    | .unreachable failure | .unanswered failure => .error (.network failure)
    | .answered response =>
      if response.status.isSuccess then (read response.text).mapError .schema
      else .error (.ofResponse response.status response.text)

/-- What a server sees of a call. -/
def sentTo (c : Client) (path : String) (request : Url → Http.Request) : List Http.Request :=
  match c.endpoint path with
  | .error _ => []
  | .ok url => c.delivered (request url)

theorem sentTo_of_error {c : Client} {path : String} {e : ApiError} (h : c.endpoint path = .error e)
    (request : Url → Http.Request) : c.sentTo path request = [] := by
  unfold sentTo
  rw [h]

theorem sentTo_of_ok {c : Client} {path : String} {url : Url} (h : c.endpoint path = .ok url)
    (request : Url → Http.Request) : c.sentTo path request = c.delivered (request url) := by
  unfold sentTo
  rw [h]

theorem mem_sentTo {c : Client} {path : String} {request : Url → Http.Request}
    {sent : Http.Request} (h : sent ∈ c.sentTo path request) :
    ∃ url, c.endpoint path = .ok url ∧ sent = request url := by
  unfold sentTo at h
  split at h
  · nomatch h
  · next url hurl =>
    unfold delivered at h
    split at h
    · exact ⟨url, hurl, List.mem_singleton.mp h⟩
    · nomatch h

theorem answer_map (c : Client) (path : String) (request : Url → Http.Request)
    (read : String → Except Json.Failure α) (f : α → β) :
    (c.answer path request read).map f = c.answer path request fun body => (read body).map f := by
  unfold answer
  split
  · rfl
  · split
    · rfl
    · rfl
    · next response _ =>
      split
      · dsimp only
        cases read response.text <;> rfl
      · rfl

/-- The ways a call can go, each with its result and with what a server sees of it. -/
inductive Course (c : Client) (path : String) (request : Url → Http.Request)
    (read : String → Except Json.Failure α) : Except ApiError α → List Http.Request → Prop where
  | nowhere {e : UrlError} (h : c.endpoint path = .error (.invalidUrl e)) :
    Course c path request read (.error (.invalidUrl e)) []
  | silent {url : Url} {failure : Http.Failure} (hurl : c.endpoint path = .ok url)
    (h : (c.transport (request url)).failure? = some failure) :
    Course c path request read (.error (.network failure)) (c.delivered (request url))
  | refused {url : Url} {response : Http.Response} (hurl : c.endpoint path = .ok url)
    (hanswer : c.transport (request url) = .answered response)
    (h : response.status.isSuccess = false) :
    Course c path request read (.error (.ofResponse response.status response.text)) [request url]
  | misread {url : Url} {response : Http.Response} {f : Json.Failure}
    (hurl : c.endpoint path = .ok url) (hanswer : c.transport (request url) = .answered response)
    (hsuccess : response.status.isSuccess = true) (h : read response.text = .error f) :
    Course c path request read (.error (.schema f)) [request url]
  | done {url : Url} {response : Http.Response} {a : α} (hurl : c.endpoint path = .ok url)
    (hanswer : c.transport (request url) = .answered response)
    (hsuccess : response.status.isSuccess = true) (h : read response.text = .ok a) :
    Course c path request read (.ok a) [request url]

theorem delivered_of_answered {c : Client} {request : Http.Request} {response : Http.Response}
    (h : c.transport request = .answered response) : c.delivered request = [request] := by
  rw [delivered, h]
  rfl

/-- Every call goes one of these ways. -/
theorem course (c : Client) (path : String) (request : Url → Http.Request)
    (read : String → Except Json.Failure α) :
    Course c path request read (c.answer path request read) (c.sentTo path request) := by
  unfold answer sentTo
  cases hurl : c.endpoint path with
  | error e =>
    obtain ⟨e, rfl⟩ : ∃ error, e = .invalidUrl error := by
      unfold endpoint at hurl
      cases hread : Url.read (appendPath c.baseUrl.text path) with
      | error error =>
        rw [hread] at hurl
        exact ⟨error, (Except.error.inj hurl).symm⟩
      | ok url =>
        rw [hread] at hurl
        nomatch hurl
    exact .nowhere hurl
  | ok url =>
    dsimp only
    cases hanswer : c.transport (request url) with
    | unreachable | unanswered => exact .silent hurl (by rw [hanswer]; rfl)
    | answered response =>
      rw [delivered_of_answered hanswer]
      cases hsuccess : response.status.isSuccess with
      | false =>
        dsimp only
        rw [hsuccess, if_neg Bool.false_ne_true]
        exact .refused hurl hanswer hsuccess
      | true =>
        dsimp only
        rw [hsuccess, if_pos rfl]
        cases h : read response.text with
        | error f => exact .misread hurl hanswer hsuccess h
        | ok a => exact .done hurl hanswer hsuccess h

/-- A call gives something only if its one request was answered. -/
theorem sentTo_of_answer {c : Client} {path : String} {request : Url → Http.Request}
    {read : String → Except Json.Failure α} {a : α} (h : c.answer path request read = .ok a) :
    ∃ url response, c.endpoint path = .ok url ∧ c.sentTo path request = [request url] ∧
      c.transport (request url) = .answered response ∧ response.status.isSuccess = true ∧
        read response.text = .ok a := by
  have hcourse := c.course path request read
  rw [h] at hcourse
  generalize c.sentTo path request = sent at hcourse
  cases hcourse with
  | done hurl hanswer hsuccess hread => exact ⟨_, _, hurl, rfl, hanswer, hsuccess, hread⟩

/-- A call makes of a success what it makes of its text. -/
theorem answer_eq_of_success {c : Client} {path : String} {request : Url → Http.Request} {url : Url}
    {response : Http.Response} (hurl : c.endpoint path = .ok url)
    (hanswer : c.transport (request url) = .answered response)
    (hsuccess : response.status.isSuccess = true) (read : String → Except Json.Failure α) :
    c.answer path request read = (read response.text).mapError .schema := by
  unfold answer
  rw [hurl]
  dsimp only
  rw [hanswer]
  dsimp only
  rw [if_pos hsuccess]

theorem answer_of_success {c : Client} {path : String} {request : Url → Http.Request} {url : Url}
    {response : Http.Response} {read : String → Except Json.Failure α} {a : α}
    (hurl : c.endpoint path = .ok url) (hanswer : c.transport (request url) = .answered response)
    (hsuccess : response.status.isSuccess = true) (hread : read response.text = .ok a) :
    c.answer path request read = .ok a := by
  rw [answer_eq_of_success hurl hanswer hsuccess, hread]
  rfl

theorem length_sentTo_le (c : Client) (path : String) (request : Url → Http.Request) :
    (c.sentTo path request).length ≤ 1 := by
  unfold sentTo
  split
  · exact Nat.zero_le 1
  · unfold delivered
    split <;> simp

theorem run_send (c : Client) (request : Http.Request) (j : Journal) :
    (c.send request).run j =
      match c.transport request with
      | .unreachable failure => (.error (.network failure), j)
      | .unanswered failure => (.error (.network failure), j.deliver request)
      | .answered response =>
        (if response.status.isSuccess then .ok response
          else .error (.ofResponse response.status response.text), j.deliver request) := by
  unfold send
  cases c.transport request with
  | unreachable => rfl
  | unanswered => rfl
  | answered response =>
    by_cases hsuccess : response.status.isSuccess = true
    · simp only [if_pos hsuccess]; rfl
    · simp only [if_neg hsuccess]; rfl

theorem run_address (c : Client) (method : Http.Method) (path : String) (j : Journal) :
    (c.address method path).run j =
      match c.endpoint path with
      | .error e => (.error e, j)
      | .ok url => (.ok url, j.note (.sending method url)) := by
  unfold address
  cases c.endpoint path <;> rfl

/-- A call reports what it fails with, and it fails as its URL, its delivery, the status and the
body of its answer make it. -/
theorem ends_exchange (c : Client) (method : Http.Method) (path : String)
    (request : Url → Http.Request) {read : String → Except Json.Failure α}
    {finish : Http.Response → Action α}
    (hfinish : ∀ response, finish response =
      match read response.text with
      | .ok a => pure a
      | .error f => throw (.schema f)) :
    Action.Ends c.sink
      (Action.reporting c.sink do
        let url ← c.address method path
        let response ← c.send (request url)
        finish response)
      (c.answer path request read) (c.sentTo path request) := by
  intro j
  unfold answer sentTo delivered
  rw [Action.run_reporting, Action.run_bind, run_address]
  cases c.endpoint path with
  | error e => exact ⟨_, rfl, Journal.grows_report c.sink e j⟩
  | ok url =>
    dsimp only
    -- From here on the journal has one more remark.
    have hnoted : j.Grows c.sink [] [] (j.note (.sending method url)) :=
      Journal.grows_note c.sink rfl j
    generalize j.note (Event.sending method url) = noted at hnoted ⊢
    have hdelivered := hnoted.trans (Journal.grows_deliver c.sink (request url) noted)
    have hreported (j' : Journal) (e : ApiError) := Journal.grows_report c.sink e j'
    rw [Action.run_bind, run_send]
    cases c.transport (request url) with
    | unreachable => exact ⟨_, rfl, hnoted.trans (hreported _ _)⟩
    | unanswered => exact ⟨_, rfl, hdelivered.trans (hreported _ _)⟩
    | answered response =>
      by_cases hsuccess : response.status.isSuccess = true
      · simp only [if_pos hsuccess, hfinish, Http.Delivery.isSeen, if_true]
        cases read response.text with
        | ok a => exact ⟨_, rfl, hdelivered⟩
        | error f => exact ⟨_, rfl, hdelivered.trans (hreported _ _)⟩
      · simp only [if_neg hsuccess, Http.Delivery.isSeen, if_true]
        exact ⟨_, rfl, hdelivered.trans (hreported _ _)⟩

/-- A call that asks. -/
theorem ends_fetch (c : Client) (schema : Json.Schema) (path : String)
    (pairs : List (String × String)) :
    Action.Ends c.sink (c.fetch schema path pairs)
      (c.answer path (.ask · pairs) schema.read) (c.sentTo path (.ask · pairs)) :=
  c.ends_exchange .get path _ fun response => by cases schema.read response.text <;> rfl

/-- A call that tells something; no answer to it is none. -/
theorem ends_post (c : Client) (path : String) (pairs : List (String × String)) :
    Action.Ends c.sink (c.post path pairs)
      (c.answer path (.tell · pairs) fun _ => .ok ()) (c.sentTo path (.tell · pairs)) :=
  c.ends_exchange .post path _ fun _ => rfl

end Client

namespace Operation

/-- What an operation gives. -/
def Answer : Operation → Type
  | branches _ => List BranchLike
  | deleteBranch _ | renameBranch _ _ => Unit
  | measures _ => List Measure
  | measuresAndMeta _ _ _ => MeasuresAndMeta
  | projectMeasures _ _ => List ProjectMeasure

/-- Carries out the operation. -/
def perform (c : Client) : (op : Operation) → Action op.Answer
  | branches project => c.branches project
  | deleteBranch r => c.deleteBranch r
  | renameBranch project name => c.renameBranch project name
  | measures r => c.measures r
  | measuresAndMeta component metrics additional => c.measuresAndMeta component metrics additional
  | projectMeasures projects metrics => c.projectMeasures projects metrics

/-- The branches of a project with the samples behind them in mock mode. -/
def listing (mock : Bool) (entries : List BranchLike) : List BranchLike :=
  if mock then entries ++ PullRequest.samples.map .pullRequest else entries

/-- What the operation makes of the body of an answer. -/
def decode (mock : Bool) : (op : Operation) → String → Except Json.Failure op.Answer
  | branches _ => fun body => (Client.branchListSchema.read body).map fun answer =>
      listing mock (List.map BranchLike.ofVal answer.1)
  | deleteBranch _ | renameBranch _ _ => fun _ => .ok ()
  | measures _ => fun body => (Client.componentMeasuresSchema.read body).map fun answer =>
      List.map Measure.ofVal answer.1.1
  | measuresAndMeta _ _ _ => fun body => (MeasuresAndMeta.schema.read body).map .ofVal
  | projectMeasures _ _ => fun body => (Client.projectMeasuresSchema.read body).map fun answer =>
      List.map ProjectMeasure.ofVal answer.1

/-- The result of the operation. -/
def result (c : Client) (op : Operation) : Except ApiError op.Answer :=
  c.answer op.path op.request (op.decode c.options.mockMode)

variable {c : Client}

/-- An operation that asks makes something of what it has read, and adds nothing but remarks. -/
theorem ends_of_fetch {schema : Json.Schema} {path : String} {pairs : List (String × String)}
    {α : Type} {f : schema.Val → Action α} {g : schema.Val → α}
    (hf : ∀ a, Action.Ends c.sink (f a) (.ok (g a)) []) :
    Action.Ends c.sink (c.fetch schema path pairs >>= f)
      (c.answer path (.ask · pairs) fun body => (schema.read body).map g)
      (c.sentTo path (.ask · pairs)) := by
  rw [← Client.answer_map]
  exact (c.ends_fetch schema path pairs).bind hf

/-- What becomes of an operation. -/
theorem ends_perform (c : Client) (op : Operation) :
    Action.Ends c.sink (op.perform c) (op.result c) (c.sentTo op.path op.request) := by
  cases op with
  | branches project =>
    apply ends_of_fetch
    intro answer
    unfold listing
    -- In mock mode one more remark is made.
    cases c.options.mockMode with
    | false => exact .pure _ _
    | true => exact Action.Ends.bind (.note _ rfl) fun _ => .pure _ _
  | deleteBranch r => exact c.ends_post _ _
  | renameBranch project name => exact c.ends_post _ _
  | measures r => exact ends_of_fetch fun _ => .pure _ _
  | measuresAndMeta component metrics additional => exact ends_of_fetch fun _ => .pure _ _
  | projectMeasures projects metrics => exact ends_of_fetch fun _ => .pure _ _

theorem outcome_perform (c : Client) (op : Operation) : (op.perform c).outcome.1 = op.result c := by
  obtain ⟨journal, hrun, -⟩ := op.ends_perform c {}
  unfold Action.outcome
  rw [hrun]

end Operation
end CodeQuality
