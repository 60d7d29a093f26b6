import CodeQuality.Journal

/-!
# Which requests a call sends

A call leaves the requests of a journal as they are and appends its own. `Action.Sends` tells which
ones these are, and they are found by following the call step by step, also where it fails.

* `Sends.bind` — only the first step sends.
* `Sends.behind` — the first step only gives a value.
* `Sends.reporting` — reporting an error sends nothing.
-/

namespace CodeQuality
namespace Action

variable {α β : Type} {x : Action α} {f : α → Action β} {requests : List Http.Request}

/-- Whatever journal there is, `requests` are what the action adds to those that were sent. -/
def Sends (x : Action α) (requests : List Http.Request) : Prop :=
  ∀ j : Journal, (x.run j).2.sent = j.sent ++ requests

/-- An action that gives `a` and sends nothing. -/
def Gives (x : Action α) (a : α) : Prop :=
  ∀ j : Journal, ∃ j' : Journal, x.run j = (.ok a, j') ∧ j'.sent = j.sent

theorem run_bind (x : Action α) (f : α → Action β) (j : Journal) :
    (x >>= f).run j =
      match x.run j with
      | (.ok a, j) => (f a).run j
      | (.error e, j) => (.error e, j) := by
  show (match x.run j with
    | (r, j) => (ExceptT.bindCont f r) j) = _
  cases x.run j with
  | mk r j => cases r <;> rfl

/-- What comes behind a step that sends may go on without sending. -/
theorem Sends.bind (hx : x.Sends requests) (hf : ∀ a, (f a).Sends []) :
    (x >>= f).Sends requests := by
  intro j
  have hx := hx j
  rw [run_bind]
  cases hrun : x.run j with
  | mk r j' =>
    rw [hrun] at hx
    cases r with
    | error e => exact hx
    | ok a => exact (hf a j').trans ((List.append_nil _).trans hx)

/-- What comes behind a step that sends nothing sends all there is. -/
theorem Sends.behind {a : α} (hx : x.Gives a) (hf : (f a).Sends requests) :
    (x >>= f).Sends requests := by
  intro j
  obtain ⟨j', hrun, hsent⟩ := hx j
  rw [run_bind, hrun, ← hsent]
  exact hf j'

theorem Sends.pure (a : α) : (Pure.pure a : Action α).Sends [] :=
  fun _ => (List.append_nil _).symm

theorem Sends.throw (e : ApiError) : (throw e : Action α).Sends [] :=
  fun _ => (List.append_nil _).symm

theorem Sends.note (event : Event) : (Action.note event).Sends [] :=
  fun _ => (List.append_nil _).symm

theorem sent_report (sink : Sink) (e : ApiError) (j : Journal) :
    (j.report sink e).sent = j.sent := by
  cases sink <;> rfl

theorem run_reporting (sink : Sink) (x : Action α) (j : Journal) :
    (Action.reporting sink x).run j =
      match x.run j with
      | (.ok a, j) => (.ok a, j)
      | (.error e, j) => (.error e, j.report sink e) := by
  unfold reporting ExceptT.run
  simp only [tryCatch, tryCatchThe, MonadExceptOf.tryCatch, ExceptT.tryCatch, ExceptT.mk, bind,
    StateT.bind]
  cases x j with
  | mk r j => cases r <;> rfl

/-- Reporting an error sends nothing. -/
theorem Sends.reporting (sink : Sink) (hx : x.Sends requests) :
    (Action.reporting sink x).Sends requests := by
  intro j
  have hx := hx j
  rw [run_reporting]
  cases hrun : x.run j with
  | mk r j' =>
    rw [hrun] at hx
    cases r with
    | ok a => exact hx
    | error e => exact (sent_report sink e j').trans hx

/-- What an action sends is what the journal of its outcome holds. -/
theorem Sends.outcome (hx : x.Sends requests) : x.outcome.2.sent = requests := hx {}

end Action
end CodeQuality
