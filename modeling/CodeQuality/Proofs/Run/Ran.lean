import CodeQuality.Proofs.CommandLine.Task
import CodeQuality.Proofs.Run.Invocation

/-!
# Runs that have been made

A run with its arguments and its surroundings. Its line tells what it asks of a server; the client
and the operation follow from that and from what is set, and all that is sent and shown is made of
them.

* `Ran.Asks` — the invocation of a run that asks something.
* `Ran.operation_of_sent`, `Ran.Asks.shown` — what is sent, and what is shown of the answer.
-/

namespace CodeQuality

open CommandLine Invocation

/-- A run that has been made: its arguments, what it has found around it, and what has become of
it. -/
structure Ran where
  arguments : List String
  around : Surroundings
  result : Except UsageError Outcome

namespace Ran

/-- The words and options of the run. -/
def line (r : Ran) : Line := Invocation.line r.arguments

/-- The requests that a server has seen. -/
def sent (r : Ran) : List Http.Request :=
  match r.result with
  | .ok o => o.journal.sent
  | .error _ => []

def exitCode (r : Ran) : Nat :=
  match r.result with
  | .ok o => o.exitCode
  | .error e => e.exitCode

/-- The files as the run has left them. -/
def files (r : Ran) : FileTree :=
  match r.result with
  | .ok o => o.files
  | .error _ => r.around.files

/-- The project that the run is about: that of the line, or that of the environment, or the one that
is set. -/
def project? (r : Ran) : Option String :=
  ((r.line.values projectOption).getLast?.or r.around.project).or
    (r.around.loadSettings.toOption.bind Settings.defaultProject)

/-- The URL of the server that the run is about. -/
def base? (r : Ran) : Option Url :=
  ((((r.line.values serverOption).getLast?.or r.around.server).map normalizeServer).or
    (r.around.loadSettings.toOption.bind Settings.url)).bind fun url => (Url.read url).toOption

/-- The commands that the words of the run lead to. -/
def commands (r : Ran) : List String := (program.resolve r.line.words).1

variable {r : Ran} {i : Invocation} {asked : ServerTask} {request : Http.Request}

/-- Is the invocation what the line of the run asks of a server? -/
structure Asks (r : Ran) (asked : ServerTask) (i : Invocation) : Prop where
  read : Invocation.read r.around.server r.around.project r.arguments = .ok i
  line : r.line.serverTask? = some asked
  task : i.task = .server asked.split
  server : i.options.server = (r.line.values serverOption).getLast?.or r.around.server
  project : i.options.project = (r.line.values projectOption).getLast?.or r.around.project
  mock : i.options.mock = r.line.has mockOption
  json : i.options.json = r.line.has jsonOption

/-- A run that is carried out is what its line asks of a server, if it asks anything. -/
theorem cases_of_ok (hresult : r.result = r.around.run r.arguments) {o : Outcome}
    (h : r.result = .ok o) :
    (r.line.serverTask? = none ∧ r.line.command? ∉ [some "branch", some "measure"] ∧
        r.sent = []) ∨ ∃ asked i, r.Asks asked i ∧ o = i.run r.around := by
  obtain ⟨i, hread, hrun⟩ := map_ok_iff.mp (hresult.symm.trans h)
  have htask := task_of_read hread
  cases hasked : r.line.serverTask? with
  | none =>
    have hnone : (Invocation.line r.arguments).serverTask? = none := hasked
    rw [hnone] at htask
    refine .inl ⟨rfl, command?_of_read hread hnone, ?_⟩
    rw [sent, h, ← hrun]
    exact congrArg Journal.sent (journal_run_of_ne htask)
  | some asked =>
    have hsome : (Invocation.line r.arguments).serverTask? = some asked := hasked
    rw [hsome] at htask
    exact .inr ⟨asked, i, ⟨hread, hasked, htask, lastServer_of_read hread,
      lastProject_of_read hread, mock_of_read hread, json_of_read hread⟩, hrun.symm⟩

theorem Asks.run_eq (h : r.Asks asked i) :
    i.run r.around = r.around.carryOut (asked.split.run r.around i.options) :=
  run_of_server h.task

/-- The client and the operation of a run are those for its server and its project. -/
theorem Asks.of_ready (h : r.Asks asked i) {c : Client} {op : Operation}
    (hready : asked.split.Ready r.around i.options c op) :
    asked.split.asks r.project? = some op ∧ r.base? = some c.baseUrl ∧
      (∃ base, Url.read base = .ok c.baseUrl) ∧ c.transport = r.around.transport := by
  obtain ⟨hload, hurl, hread, hasks⟩ := hready
  rw [h.project] at hasks
  rw [h.server] at hurl
  refine ⟨?_, ?_, ⟨_, hread⟩, rfl⟩
  · rw [project?, hload]
    exact hasks
  · unfold base?
    rw [hload]
    exact (congrArg (·.bind fun url => (Url.read url).toOption) hurl).trans
      (congrArg Except.toOption hread)

/-- What is sent of an operation has been asked for, of the server and for the project of the
run. -/
theorem operation_of_sent (hresult : r.result = r.around.run r.arguments)
    (h : request ∈ r.sent) :
    ∃ (asked : ServerTask) (c : Client) (op : Operation),
      r.line.serverTask? = some asked ∧ asked.split.asks r.project? = some op ∧
        r.base? = some c.baseUrl ∧ (∃ base, Url.read base = .ok c.baseUrl) ∧
        c.transport = r.around.transport ∧ request ∈ c.sentTo op.path op.request := by
  cases hran : r.result with
  | error e =>
    rw [sent, hran] at h
    nomatch h
  | ok o =>
    obtain ⟨-, -, hnone⟩ | ⟨asked, i, hasked, rfl⟩ := cases_of_ok hresult hran
    · rw [hnone] at h
      nomatch h
    · rw [sent, hran] at h
      dsimp only at h
      rw [hasked.run_eq] at h
      rcases asked.split.outcome_cases r.around i.options with
        ⟨e, hlacks, -⟩ | ⟨c, op, journal, hready, -⟩
      · rw [ServerTask.sent_of_lacks hlacks] at h
        nomatch h
      · rw [ServerTask.sent_of_ready hready] at h
        obtain ⟨hasks, hbase, hread, htransport⟩ := hasked.of_ready hready
        exact ⟨asked, c, op, hasked.line, hasks, hbase, hread, htransport, h⟩

/-- A run that succeeds shows what its operation gives, and a server has answered its request. -/
theorem Asks.shown (h : r.Asks asked i) (hran : r.result = .ok (i.run r.around))
    (hsuccess : (i.run r.around).exitCode = RunError.success) :
    ∃ (c : Client) (op : Operation) (a : op.Answer) (url : Url),
      asked.split.Ready r.around i.options c op ∧ op.result c = .ok a ∧
        c.endpoint op.path = .ok url ∧ r.sent = [op.request url] ∧
          (i.run r.around).output =
            op.shown ⟨i.options.json, r.around.coloured, r.around.now⟩ a := by
  rw [h.run_eq] at hran hsuccess ⊢
  rcases asked.split.outcome_cases r.around i.options with
    ⟨e, -, houtcome⟩ | ⟨c, op, journal, hready, houtcome, hsent, -⟩
  · rw [houtcome] at hsuccess
    exact absurd hsuccess e.exitCode_ne_success
  · cases hresult : op.result c with
    | error e =>
      rw [houtcome, ServerTask.outcome_of_error hresult] at hsuccess
      exact absurd hsuccess (RunError.exitCode_ne_success _)
    | ok a =>
      obtain ⟨url, response, hurl, hone, -⟩ := Client.sentTo_of_answer hresult
      rw [houtcome, ServerTask.outcome_of_ok hresult] at hran ⊢
      refine ⟨c, op, a, url, hready, hresult, hurl, ?_, rfl⟩
      rw [sent, hran]
      exact hsent.trans hone

end Ran
end CodeQuality
