import CodeQuality.Proofs.Run.Invocation

/-!
# What the outcome of a run tells

A run that fails has printed nothing and says why it has failed, and one that succeeds writes
nothing to its error stream. The exit code tells whether the server has refused what was asked, and
with which status; every other failure has the same exit code.

* `Client.Fails`, `Invocation.Fails` — why a call and a run can fail, and the error that says so.
* `Verdict` — what an exit code tells.
* `Surroundings.Tells` — the discipline of outcomes.
* `Surroundings.tells_run` — every run keeps it.
-/

namespace CodeQuality

/-! ### What an exit code tells -/

namespace Http.Transport

variable {transport : Transport} {request : Request} {response : Response} {code : Nat}

/-- Was one of the requests answered with this status code? -/
def Answers (transport : Transport) (requests : List Request) (code : Nat) : Prop :=
  ∃ request ∈ requests, ∃ response, transport request = .answered response ∧
    response.status.code = code

theorem not_answers_nil (transport : Transport) (code : Nat) : ¬transport.Answers [] code := by
  rintro ⟨_, h, -⟩
  nomatch h

theorem answers_singleton_iff (h : transport request = .answered response) :
    transport.Answers [request] code ↔ response.status.code = code := by
  constructor
  · rintro ⟨sent, hsent, response', hanswer, hcode⟩
    obtain rfl := List.mem_singleton.mp hsent
    obtain rfl := Delivery.answered.inj (h.symm.trans hanswer)
    exact hcode
  · exact fun hcode => ⟨request, List.mem_singleton_self request, response, h, hcode⟩

/-- Was a request refused with a status for which there is an exit code? -/
def Refuses (transport : Transport) (requests : List Request) : Prop :=
  ∃ code ∈ [401, 403, 404], transport.Answers requests code

theorem not_refuses_nil (transport : Transport) : ¬transport.Refuses [] := by
  rintro ⟨code, -, h⟩
  exact transport.not_answers_nil code h

end Http.Transport

/-- Does an exit code tell whether a run has failed, and whether this was because a request was
refused, and with which status? -/
structure Verdict (transport : Http.Transport) (sent : List Http.Request) (fails : Prop)
    (code : Nat) : Prop where
  succeeded : code = 0 ↔ ¬fails
  refused : code = 4 ↔ transport.Answers sent 401 ∨ transport.Answers sent 403
  unknown : code = 8 ↔ transport.Answers sent 404
  failed : code = 1 ↔ fails ∧ ¬transport.Refuses sent

namespace Verdict

variable {transport : Http.Transport} {sent : List Http.Request} {fails : Prop}

/-- The verdicts where nothing was refused. -/
theorem of_not_refuses {code : Nat} (hsent : ¬transport.Refuses sent)
    (hcode : code = RunError.success ∧ ¬fails ∨ code = RunError.failure ∧ fails) :
    Verdict transport sent fails code := by
  have hnone (status : Nat) (h : status ∈ [401, 403, 404]) : ¬transport.Answers sent status :=
    fun hanswers => hsent ⟨status, h, hanswers⟩
  have hunauthorized := hnone 401 (by decide)
  have hforbidden := hnone 403 (by decide)
  have hunknown := hnone 404 (by decide)
  rcases hcode with ⟨rfl, h⟩ | ⟨rfl, h⟩ <;>
    exact ⟨by simp [RunError.success, RunError.failure, h],
      by simp [RunError.success, RunError.failure, hunauthorized, hforbidden],
      by simp [RunError.success, RunError.failure, hunknown],
      by simp [RunError.success, RunError.failure, h, hsent]⟩

theorem refusal {request : Http.Request} {response : Http.Response}
    (hanswer : transport request = .answered response) (h : fails) :
    Verdict transport [request] fails (RunError.codeFor response.status) := by
  unfold RunError.codeFor RunError.refused RunError.unknown RunError.failure
  constructor
  · grind
  · rw [Http.Transport.answers_singleton_iff hanswer, Http.Transport.answers_singleton_iff hanswer]
    grind
  · rw [Http.Transport.answers_singleton_iff hanswer]
    grind
  · unfold Http.Transport.Refuses
    simp only [Http.Transport.answers_singleton_iff hanswer]
    grind

end Verdict

/-! ### Calls -/

/-- Why a call fails: its path is none behind the base of the client, there is no answer, the answer
is a refusal, or its body is not what was asked for. -/
inductive Client.Fails {α : Type} (c : Client) (path : String) (request : Url → Http.Request)
    (read : String → Except Json.Failure α) : ApiError → Prop where
  | address {e : ApiError} (h : c.endpoint path = .error e) : Fails c path request read e
  | silence {url : Url} {failure : Http.Failure} (hurl : c.endpoint path = .ok url)
    (h : (c.transport (request url)).failure? = some failure) :
    Fails c path request read (.network failure)
  | refusal {url : Url} {response : Http.Response} (hurl : c.endpoint path = .ok url)
    (hanswer : c.transport (request url) = .answered response)
    (h : response.status.isSuccess = false) :
    Fails c path request read (.ofResponse response.status response.text)
  | body {url : Url} {response : Http.Response} {f : Json.Failure}
    (hurl : c.endpoint path = .ok url)
    (hanswer : c.transport (request url) = .answered response)
    (hsuccess : response.status.isSuccess = true) (h : read response.text = .error f) :
    Fails c path request read (.schema f)

/-- The exit code for the result of a call. -/
def RunError.codeOf {α : Type} : Except ApiError α → Nat
  | .ok _ => success
  | .error e => (call e).exitCode

namespace Client

variable {α : Type} {c : Client} {path : String} {request : Url → Http.Request}
  {read : String → Except Json.Failure α} {result : Except ApiError α} {sent : List Http.Request}
  {url : Url} {response : Http.Response}

theorem not_refuses_delivered {request : Http.Request} {failure : Http.Failure}
    (h : (c.transport request).failure? = some failure) :
    ¬c.transport.Refuses (c.delivered request) := by
  rintro ⟨code, -, sent, hsent, response, hanswer, -⟩
  unfold delivered at hsent
  split at hsent
  · obtain rfl := List.mem_singleton.mp hsent
    rw [hanswer] at h
    nomatch h
  · nomatch hsent

/-- A success is no refusal. -/
theorem not_refuses_of_success {request : Http.Request}
    (hanswer : c.transport request = .answered response)
    (hsuccess : response.status.isSuccess = true) : ¬c.transport.Refuses [request] := by
  rintro ⟨code, hcode, hanswers⟩
  obtain rfl := (Http.Transport.answers_singleton_iff hanswer).mp hanswers
  unfold Http.Status.isSuccess at hsuccess
  grind

/-- The error of a call says why it fails. -/
theorem Course.fails {e : ApiError} (h : Course c path request read (.error e) sent) :
    c.Fails path request read e := by
  cases h with
  | nowhere h => exact .address h
  | silent hurl h => exact .silence hurl h
  | refused hurl hanswer h => exact .refusal hurl hanswer h
  | misread hurl hanswer hsuccess h => exact .body hurl hanswer hsuccess h

/-- A call that gives something does not fail. -/
theorem not_fails_of_done {a : α} (hurl : c.endpoint path = .ok url)
    (hanswer : c.transport (request url) = .answered response)
    (hsuccess : response.status.isSuccess = true) (hread : read response.text = .ok a)
    (e : ApiError) : ¬c.Fails path request read e := by
  intro hfails
  cases hfails with
  | address h => nomatch hurl.symm.trans h
  | silence hurl' h =>
    cases hurl.symm.trans hurl'
    rw [hanswer] at h
    nomatch h
  | refusal hurl' hanswer' h =>
    cases hurl.symm.trans hurl'
    cases hanswer.symm.trans hanswer'
    nomatch hsuccess.symm.trans h
  | body hurl' hanswer' _ h =>
    cases hurl.symm.trans hurl'
    cases hanswer.symm.trans hanswer'
    nomatch hread.symm.trans h

/-- The exit code of a call tells how it has gone. -/
theorem Course.verdict (h : Course c path request read result sent) :
    Verdict c.transport sent (∃ e, c.Fails path request read e) (RunError.codeOf result) := by
  cases h with
  | nowhere h => exact .of_not_refuses c.transport.not_refuses_nil (.inr ⟨rfl, _, .address h⟩)
  | silent hurl h =>
    exact .of_not_refuses (not_refuses_delivered h) (.inr ⟨rfl, _, .silence hurl h⟩)
  | refused hurl hanswer h =>
    rw [RunError.codeOf, RunError.exitCode_ofResponse]
    exact .refusal hanswer ⟨_, .refusal hurl hanswer h⟩
  | misread hurl hanswer hsuccess h =>
    exact .of_not_refuses (not_refuses_of_success hanswer hsuccess)
      (.inr ⟨rfl, _, .body hurl hanswer hsuccess h⟩)
  | done hurl hanswer hsuccess h =>
    refine .of_not_refuses (not_refuses_of_success hanswer hsuccess) (.inl ⟨rfl, ?_⟩)
    rintro ⟨e, hfails⟩
    exact not_fails_of_done hurl hanswer hsuccess h e hfails

end Client

/-! ### Runs -/

namespace Invocation

/-- Why a run fails: something is lacking for the request, the call itself fails, or the settings
are not to be had. -/
inductive Fails (s : Surroundings) : Invocation → RunError → Prop where
  | lacks {o : GlobalOptions} {task : ServerTask} {e : RunError} (h : task.Lacks s o e) :
    Fails s ⟨o, .server task⟩ e
  | call {o : GlobalOptions} {task : ServerTask} {c : Client} {op : Operation} {e : ApiError}
    (hready : task.Ready s o c op)
    (h : c.Fails op.path op.request (op.decode c.options.mockMode) e) :
    Fails s ⟨o, .server task⟩ (.call e)
  | settings {o : GlobalOptions} {task : SettingsTask} {e : RunError} (h : task.Fails s e) :
    Fails s ⟨o, .settings task⟩ e

variable {s : Surroundings} {o : GlobalOptions}

theorem fails_settings_iff {task : SettingsTask} {e : RunError} :
    Fails s ⟨o, .settings task⟩ e ↔ task.Fails s e := by
  constructor
  · intro h
    cases h with
    | settings h => exact h
  · exact .settings

theorem exists_fails_server_iff {task : ServerTask} {c : Client} {op : Operation}
    (hready : task.Ready s o c op) :
    (∃ e, Fails s ⟨o, .server task⟩ e) ↔
      ∃ e, c.Fails op.path op.request (op.decode c.options.mockMode) e := by
  constructor
  · rintro ⟨e, h⟩
    cases h with
    | lacks h => exact absurd h hready.not_lacks
    | call hready' h =>
      obtain ⟨rfl, rfl⟩ := hready.unique hready'
      exact ⟨_, h⟩
  · rintro ⟨e, h⟩
    exact ⟨_, .call hready h⟩

/-- Has a run either shown something and logged nothing, or has it failed for a reason that there
is, without having shown or logged anything? -/
inductive Ends (s : Surroundings) (i : Invocation) : Outcome → Prop where
  | shown {text : String} {files : FileTree} {journal : Journal} (halarms : journal.alarms = []) :
    Ends s i (s.shows text files journal)
  | failed {e : RunError} {files : FileTree} {journal : Journal} (halarms : journal.alarms = [])
    (h : i.Fails s e) : Ends s i (s.fails e files journal)

/-- Does the exit code of a run tell how it has gone? -/
def Decides (s : Surroundings) (i : Invocation) (o : Outcome) : Prop :=
  Verdict s.transport o.journal.sent (∃ e, i.Fails s e) o.exitCode

theorem ends_of_shows {i : Invocation} {text : String} (hrun : i.run s = s.shows text s.files)
    (h : ∀ e, ¬i.Fails s e) : i.Ends s (i.run s) ∧ i.Decides s (i.run s) := by
  rw [hrun]
  refine ⟨.shown rfl, .of_not_refuses s.transport.not_refuses_nil (.inl ⟨rfl, ?_⟩)⟩
  rintro ⟨e, hfails⟩
  exact h e hfails

theorem ends_server (s : Surroundings) (o : GlobalOptions) (task : ServerTask) :
    Ends s ⟨o, .server task⟩ (run s ⟨o, .server task⟩) ∧
      Decides s ⟨o, .server task⟩ (run s ⟨o, .server task⟩) := by
  rw [run_of_server rfl]
  rcases task.outcome_cases s o with ⟨e, hlacks, houtcome⟩ |
    ⟨c, op, journal, hready, houtcome, hsent, halarms⟩
  · rw [houtcome]
    refine ⟨.failed rfl (.lacks hlacks), ?_⟩
    exact .of_not_refuses s.transport.not_refuses_nil (.inr ⟨hlacks.exitCode, e, .lacks hlacks⟩)
  · have hcourse := c.course op.path op.request (op.decode c.options.mockMode)
    have hverdict := hcourse.verdict
    rw [← hsent, hready.transport_eq] at hverdict
    rw [houtcome, Decides, exists_fails_server_iff hready]
    unfold ServerTask.outcome Operation.result
    cases hresult : c.answer op.path op.request (op.decode c.options.mockMode) with
    | ok a =>
      rw [hresult] at hverdict
      exact ⟨.shown halarms, hverdict⟩
    | error e =>
      rw [hresult] at hverdict hcourse
      exact ⟨.failed halarms (.call hready hcourse.fails), hverdict⟩

theorem ends_settings (s : Surroundings) (o : GlobalOptions) (task : SettingsTask) :
    Ends s ⟨o, .settings task⟩ (run s ⟨o, .settings task⟩) ∧
      Decides s ⟨o, .settings task⟩ (run s ⟨o, .settings task⟩) := by
  have hnothing := s.transport.not_refuses_nil
  have hends := task.ends_run s o.json
  rw [run_of_settings rfl]
  dsimp only
  generalize s.carryOut (task.run s o.json) = outcome at hends ⊢
  unfold Decides
  simp only [fails_settings_iff]
  cases hends with
  | shown htask h =>
    refine ⟨.shown rfl, .of_not_refuses hnothing (.inl ⟨rfl, ?_⟩)⟩
    rintro ⟨e, hfails⟩
    exact h e hfails
  | failed h =>
    exact ⟨.failed rfl (.settings h), .of_not_refuses hnothing (.inr ⟨h.exitCode, _, h⟩)⟩
  | unsaved hattempt h =>
    have hfails := SettingsTask.Fails.save hattempt (congrArg Prod.fst h)
    exact ⟨.failed rfl (.settings hfails), .of_not_refuses hnothing (.inr ⟨rfl, _, hfails⟩)⟩
  | saved hattempt h =>
    refine ⟨.shown rfl, .of_not_refuses hnothing (.inl ⟨rfl, ?_⟩)⟩
    rintro ⟨e, hfails⟩
    exact hattempt.not_fails (congrArg Prod.fst h) e hfails

theorem ends_run (s : Surroundings) (i : Invocation) : i.Ends s (i.run s) ∧ i.Decides s (i.run s) := by
  obtain ⟨o, task⟩ := i
  cases task with
  | server task => exact ends_server s o task
  | settings task => exact ends_settings s o task
  | completion shell =>
    exact ends_of_shows (Surroundings.carryOut_prints (Command.prints_print _)) nofun
  | version => exact ends_of_shows (Surroundings.carryOut_prints (Command.prints_print _)) nofun

end Invocation

namespace Surroundings

/-- Does an outcome tell how the run has gone? If it has succeeded, nothing is written to its error
stream, and if it has failed, nothing is printed, and the error stream tells of an error that there
is. -/
structure Tells (s : Surroundings) (i : Invocation) (o : Outcome) : Prop where
  code : o.exitCode ∈ [0, 1, 4, 8]
  succeeded : o.exitCode = 0 → o.errors = ""
  failed : o.exitCode ≠ 0 → o.output = "" ∧ ∃ e, i.Fails s e ∧
    o.errors =
      ({ colour := some .red, bold := true } : Style).paint s.coloured "error:" ++ " " ++
        e.chain s.explain ++ "\n"
  verdict : Verdict s.transport o.journal.sent (∃ e, i.Fails s e) o.exitCode

end Surroundings
end CodeQuality
