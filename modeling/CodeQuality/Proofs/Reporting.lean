import CodeQuality.Proofs.Call

/-!
# Every failure is reported once

While a client is in use, its calls go over whatever transport there is, some of them fail, and mock
mode may be switched on and off. What the sink is told in the end are the errors of the calls that
have failed, in their order and each once; nothing else is reported, and no call sends a second
request.

* `Call.ends_result` — the result of a call, with the request that a server sees of it.
* `Client.play` — the calls of a client, one after the other.
* `Made.Accounts` — what one call leaves behind.
* `Client.accounts_play` — what all of them leave behind.
-/

namespace CodeQuality

/-- A call of a client: an operation, or a request of one's own. -/
inductive Call where
  | operation (op : Operation)
  | fetch (schema : Json.Schema) (path : String) (pairs : List (String × String))
  | post (path : String) (pairs : List (String × String))

namespace Call

/-- What a call gives. -/
def Answer : Call → Type
  | operation op => op.Answer
  | fetch schema _ _ => schema.Val
  | post _ _ => Unit

/-- Makes the call. -/
def perform (c : Client) : (k : Call) → Action k.Answer
  | operation op => op.perform c
  | fetch schema path pairs => c.fetch schema path pairs
  | post path pairs => c.post path pairs

/-- The path that a call appends to the base of its client. -/
def path : Call → String
  | operation op => op.path
  | fetch _ path _ | post path _ => path

/-- The request of a call, where `url` is that of its path. -/
def request (k : Call) (url : Url) : Http.Request :=
  match k with
  | operation op => op.request url
  | fetch _ _ pairs => .ask url pairs
  | post _ pairs => .tell url pairs

/-- What a call makes of the text of a success. -/
def decode (mock : Bool) : (k : Call) → String → Except Json.Failure k.Answer
  | operation op => op.decode mock
  | fetch schema _ _ => schema.read
  | post _ _ => fun _ => .ok ()

/-- The result of a call. -/
def result (c : Client) (k : Call) : Except ApiError k.Answer :=
  c.answer k.path k.request (k.decode c.options.mockMode)

/-- What becomes of a call. -/
theorem ends_result (c : Client) (k : Call) :
    Action.Ends c.sink (k.perform c) (k.result c) (c.sentTo k.path k.request) := by
  cases k with
  | operation op => exact op.ends_perform c
  | fetch schema path pairs => exact c.ends_fetch schema path pairs
  | post path pairs => exact c.ends_post path pairs

/-- A call sends at most one request, and reports the error that it returns. -/
theorem ends_perform (c : Client) (k : Call) : ∃ result requests, requests.length ≤ 1 ∧
    Action.Ends c.sink (k.perform c) result requests :=
  ⟨_, _, c.length_sentTo_le _ _, k.ends_result c⟩

end Call

/-- What is done with a client: a call, over whatever carries its request, or switching mock
mode. -/
inductive ClientStep where
  | call (k : Call) (transport : Http.Transport)
  | mock (enabled : Bool)

/-- The call that a step makes. -/
def ClientStep.call? : ClientStep → Option Call
  | call k _ => some k
  | mock _ => none

/-- A call that has been made: what it has returned, and the journal before and after it. -/
structure Made where
  call : Call
  returned : Except ApiError call.Answer
  before : Journal
  after : Journal

namespace Made

/-- The error that was returned, if it was one. -/
def errors (m : Made) : List ApiError := errorsOf m.returned

/-- Has the call told the sink its error and nothing else, and sent no second request? -/
structure Accounts (sink : Sink) (m : Made) : Prop where
  reported : m.after.reported = m.before.reported ++ sink.collected m.errors
  alarms : m.after.alarms = m.before.alarms ++ sink.logged m.errors
  sent : ∃ requests, requests.length ≤ 1 ∧ m.after.sent = m.before.sent ++ requests

end Made

namespace Client

/-- Takes steps with a client, and gives the calls that were made and the journal after them. -/
def play (c : Client) (j : Journal) : List ClientStep → List Made × Journal
  | [] => ([], j)
  | .mock enabled :: steps => (c.withMockMode enabled).play j steps
  | .call k transport :: steps =>
    let (returned, after) := (k.perform { c with transport }).run j
    let (later, last) := c.play after steps
    (⟨k, returned, j, after⟩ :: later, last)

/-- Whatever is done with a client, its sink is told just the errors that its calls return, in their
order: they are collected, or each of them is logged as one warning or error. A call that succeeds
reports nothing, and each call sends at most one request. -/
theorem accounts_play (c : Client) (j : Journal) (steps : List ClientStep) :
    let (made, last) := c.play j steps
    made.map Made.call = steps.filterMap ClientStep.call? ∧
      (∀ m ∈ made, m.Accounts c.sink) ∧
      last.reported = j.reported ++ c.sink.collected (made.flatMap Made.errors) ∧
      last.alarms = j.alarms ++ c.sink.logged (made.flatMap Made.errors) := by
  induction steps generalizing c j with
  | nil => cases c.sink <;> simp [play, Sink.collected, Sink.logged]
  | cons step steps ih =>
    cases step with
    | mock enabled => exact ih (c.withMockMode enabled) j
    | call k transport =>
      obtain ⟨result, requests, hlength, hends⟩ := k.ends_perform { c with transport }
      obtain ⟨after, hrun, hgrows⟩ := hends j
      obtain ⟨hcalls, haccounts, hreported, halarms⟩ := ih c after
      have hfirst : (⟨k, result, j, after⟩ : Made).Accounts c.sink :=
        ⟨hgrows.reported, hgrows.alarms, requests, hlength, hgrows.sent⟩
      unfold play
      rw [hrun]
      refine ⟨congrArg (k :: ·) hcalls, ?_, ?_, ?_⟩
      · exact List.forall_mem_cons.mpr ⟨hfirst, haccounts⟩
      · rw [hreported, hfirst.reported, List.flatMap_cons, Sink.collected_append, List.append_assoc]
      · rw [halarms, hfirst.alarms, List.flatMap_cons, Sink.logged_append, List.append_assoc]

end Client
end CodeQuality
