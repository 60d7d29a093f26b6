import CodeQuality.Proofs.Call
import CodeQuality.Proofs.Run.Command
import CodeQuality.Run

/-!
# What a run asks of a server

A run that is about a server first finds its settings, its client and the operation that it asks
for, and fails without a request if it lacks one of them. Then it carries out the operation, and
what it shows is made of the answer alone.

* `ServerTask.asks` — the operation that a task asks for.
* `ServerTask.Lacks`, `ServerTask.Ready` — what a run can lack, and what it has otherwise.
* `ServerTask.outcome_cases` — the outcome of a run in either case.
-/

namespace CodeQuality

variable {s : Surroundings} {o : GlobalOptions} {settings : Settings} {c : Client} {op : Operation}

namespace ServerTask

/-- The operation that a task asks for, or why it asks for none. -/
def operation (o : GlobalOptions) (s : Settings) : ServerTask → Except RunError Operation
  | listBranches => (o.projectOf s).map .branches
  | deleteBranch target confirmed => do
    let project ← o.projectOf s
    if confirmed then return .deleteBranch (target.request project) else throw .unconfirmed
  | renameBranch name => (o.projectOf s).map fun project => .renameBranch project name
  | measures component metrics branch pullRequest => do
    let component ← component.elim (o.projectOf s) pure
    return .measures { component, metrics, branch, pullRequest }
  | measuresAndMeta component metrics additional => do
    let component ← component.elim (o.projectOf s) pure
    return .measuresAndMeta component metrics (withDefaults additional)
  | projectMeasures projects metrics => .ok (.projectMeasures projects metrics)

end ServerTask

/-- The branch or the pull request that is to be deleted, in words. -/
def DeleteRequest.text (r : DeleteRequest) : String :=
  match r.branch with
  | some name => (DeleteTarget.branch name).text
  | none => (DeleteTarget.pullRequest (r.pullRequest.getD "")).text

/-- What is shown of what an operation gives. -/
def Operation.exhibit (d : Display) : (op : Operation) → op.Answer → Exhibit
  | branches _ => d.branches
  | deleteBranch r => fun _ => d.done ("Deleted " ++ r.text ++ " of " ++ r.project)
  | renameBranch project name => fun _ =>
    d.done ("Renamed main branch of " ++ project ++ " to " ++ Style.cyan.paint d.coloured name)
  | measures _ => d.measures
  | measuresAndMeta _ _ _ => d.measuresAndMeta
  | projectMeasures _ _ => d.projectMeasures

/-- What a run prints of what an operation gives. -/
def Operation.shown (d : Display) (op : Operation) (a : op.Answer) : String := d.text (op.exhibit d a)

namespace ServerTask

/-- What a task does is to call its operation and to show what that gives. -/
theorem ask_of_operation (o : GlobalOptions) (settings : Settings) (d : Display) (c : Client)
    (task : ServerTask) :
    match task.operation o settings with
    | .error e => ∀ t, (task.ask o settings d c).run t = (.error e, t)
    | .ok op => task.ask o settings d c = (do
        let a ← Command.call (op.perform c)
        d.print (op.exhibit d a) : Command Unit) := by
  cases task with
  | listBranches =>
    unfold operation ask
    cases o.projectOf settings with
    | error e => exact fun _ => rfl
    | ok project => exact Command.require_ok_bind project _
  | deleteBranch target confirmed =>
    unfold operation ask
    cases o.projectOf settings with
    | error e => exact fun _ => rfl
    | ok project =>
      cases confirmed with
      | false => exact fun _ => rfl
      | true => cases target <;> exact Command.require_ok_bind project _
  | renameBranch name =>
    unfold operation ask
    cases o.projectOf settings with
    | error e => exact fun _ => rfl
    | ok project => exact Command.require_ok_bind project _
  | measures component metrics branch pullRequest =>
    unfold operation ask
    dsimp only
    cases component.elim (o.projectOf settings) pure with
    | error e => exact fun _ => rfl
    | ok component => exact Command.require_ok_bind component _
  | measuresAndMeta component metrics additional =>
    unfold operation ask
    dsimp only
    cases component.elim (o.projectOf settings) pure with
    | error e => exact fun _ => rfl
    | ok component => exact Command.require_ok_bind component _
  | projectMeasures projects metrics => rfl

/-! ### What a run can lack -/

/-- The operation that a task asks for, where `project?` is the project that is given or set. -/
def asks (project? : Option String) : ServerTask → Option Operation
  | listBranches => project?.map .branches
  | deleteBranch target confirmed =>
    if confirmed then project?.map fun project => .deleteBranch (target.request project) else none
  | renameBranch name => project?.map fun project => .renameBranch project name
  | measures component metrics branch pullRequest =>
    (component.or project?).map fun component =>
      .measures { component, metrics, branch, pullRequest }
  | measuresAndMeta component metrics additional =>
    (component.or project?).map fun component =>
      .measuresAndMeta component metrics (withDefaults additional)
  | projectMeasures projects metrics => some (.projectMeasures projects metrics)

/-- Does the task ask about a project that it does not name? -/
def NeedsProject : ServerTask → Prop
  | listBranches | deleteBranch _ _ | renameBranch _ => True
  | measures component _ _ _ | measuresAndMeta component _ _ => component = none
  | projectMeasures _ _ => False

/-- Does the task delete something without having been told that it may? -/
def Unconfirmed : ServerTask → Prop
  | deleteBranch _ confirmed => confirmed = false
  | listBranches | renameBranch _ | measures _ _ _ _ | measuresAndMeta _ _ _
  | projectMeasures _ _ => False

theorem asks_eq_none_iff {project? : Option String} (task : ServerTask) :
    task.asks project? = none ↔ task.NeedsProject ∧ project? = none ∨ task.Unconfirmed := by
  cases task with
  | listBranches | renameBranch | projectMeasures => simp [asks, NeedsProject, Unconfirmed]
  | deleteBranch target confirmed => cases confirmed <;> simp [asks, NeedsProject, Unconfirmed]
  | measures component | measuresAndMeta component =>
    cases component <;> simp [asks, NeedsProject, Unconfirmed]

/-- A task that asks for nothing lacks a project or a confirmation. -/
theorem operation_of_asks (o : GlobalOptions) (settings : Settings) (task : ServerTask) :
    match task.asks (o.project.or settings.defaultProject) with
    | some op => task.operation o settings = .ok op
    | none =>
      (task.operation o settings = .error .noProject ∧ task.NeedsProject ∧
          o.project.or settings.defaultProject = none) ∨
        task.operation o settings = .error .unconfirmed ∧ task.Unconfirmed := by
  unfold asks operation GlobalOptions.projectOf
  cases o.project.or settings.defaultProject with
  | none =>
    cases task with
    | listBranches | renameBranch => exact .inl ⟨rfl, trivial, rfl⟩
    | deleteBranch _ confirmed => cases confirmed <;> exact .inl ⟨rfl, trivial, rfl⟩
    | measures component | measuresAndMeta component =>
      cases component with
      | none => exact .inl ⟨rfl, rfl, rfl⟩
      | some => rfl
    | projectMeasures => rfl
  | some project =>
    cases task with
    | listBranches | renameBranch | projectMeasures => rfl
    | deleteBranch _ confirmed =>
      cases confirmed with
      | false => exact .inr ⟨rfl, rfl⟩
      | true => rfl
    | measures component | measuresAndMeta component => cases component <;> rfl

/-- What a run can lack, so that it asks a server nothing, and the error that says so. -/
inductive Lacks (s : Surroundings) (o : GlobalOptions) (task : ServerTask) : RunError → Prop where
  | settings {e : RunError} (h : s.loadSettings = .error e) : Lacks s o task e
  | server {settings : Settings} (hload : s.loadSettings = .ok settings)
    (h : (o.server.map normalizeServer).or settings.url = none) : Lacks s o task .noServer
  | url {settings : Settings} {url : String} {e : UrlError} (hload : s.loadSettings = .ok settings)
    (hurl : (o.server.map normalizeServer).or settings.url = some url)
    (h : Url.read url = .error e) : Lacks s o task (.call (.invalidUrl e))
  | project {settings : Settings} (hload : s.loadSettings = .ok settings)
    (hneeds : task.NeedsProject) (h : o.project.or settings.defaultProject = none) :
    Lacks s o task .noProject
  | confirmation (h : task.Unconfirmed) : Lacks s o task .unconfirmed

theorem Lacks.exitCode {task : ServerTask} {e : RunError} (h : task.Lacks s o e) :
    e.exitCode = RunError.failure := by
  cases h with
  | settings h => exact RunError.exitCode_of_loadSettings h
  | server | url | project | confirmation => rfl

/-! ### Preparation -/

/-- The client and the operation of a run. -/
def prepare (s : Surroundings) (o : GlobalOptions) (task : ServerTask) :
    Except RunError (Client × Operation) := do
  let settings ← s.loadSettings
  let client ← o.client settings s.transport
  let op ← task.operation o settings
  return (client, op)

theorem client_cases (o : GlobalOptions) (settings : Settings) (transport : Http.Transport) :
    match (o.server.map normalizeServer).or settings.url with
    | none => o.client settings transport = .error .noServer
    | some url =>
      match Url.read url with
      | .error e => o.client settings transport = .error (.call (.invalidUrl e))
      | .ok base => o.client settings transport = .ok
          { baseUrl := base, options := (o.override settings).clientOptions, sink := .collector,
            transport } := by
  unfold GlobalOptions.client Settings.client Client.connect
  show match (o.override settings).url with | none => _ | some url => _
  cases (o.override settings).url with
  | none => rfl
  | some url =>
    dsimp only
    cases Url.read url <;> rfl

/-- What a run needs to ask a server something: settings, a URL for the server, and all that its
operation takes. -/
inductive Ready (s : Surroundings) (o : GlobalOptions) (task : ServerTask) :
    Client → Operation → Prop where
  | intro {settings : Settings} {url : String} {base : Url} {op : Operation}
    (hload : s.loadSettings = .ok settings)
    (hurl : (o.server.map normalizeServer).or settings.url = some url)
    (hread : Url.read url = .ok base)
    (hasks : task.asks (o.project.or settings.defaultProject) = some op) :
    Ready s o task
      { baseUrl := base, options := (o.override settings).clientOptions, sink := .collector,
        transport := s.transport } op

/-- The client of a run has the URL that is given or set. -/
theorem exists_ready {task : ServerTask} {url : String} {base : Url}
    (hload : s.loadSettings = .ok settings)
    (hurl : (o.server.map normalizeServer).or settings.url = some url)
    (hread : Url.read url = .ok base)
    (hasks : task.asks (o.project.or settings.defaultProject) = some op) :
    ∃ c, c.baseUrl = base ∧ task.Ready s o c op :=
  ⟨_, rfl, .intro hload hurl hread hasks⟩

theorem Ready.not_lacks {task : ServerTask} {e : RunError} (hready : task.Ready s o c op) :
    ¬task.Lacks s o e := by
  obtain ⟨hload, hurl, hread, hasks⟩ := hready
  have hsettings {settings' : Settings} (h : s.loadSettings = .ok settings') :=
    Except.ok.inj (hload.symm.trans h)
  intro hlacks
  cases hlacks with
  | settings h =>
    rw [hload] at h
    nomatch h
  | server hload' h =>
    obtain rfl := hsettings hload'
    rw [hurl] at h
    nomatch h
  | url hload' hurl' h =>
    obtain rfl := hsettings hload'
    obtain rfl := Option.some.inj (hurl.symm.trans hurl')
    rw [hread] at h
    nomatch h
  | project hload' hneeds h =>
    obtain rfl := hsettings hload'
    rw [task.asks_eq_none_iff.mpr (.inl ⟨hneeds, h⟩)] at hasks
    nomatch hasks
  | confirmation h =>
    rw [task.asks_eq_none_iff.mpr (.inr h)] at hasks
    nomatch hasks

/-- A run has one client and one operation. -/
theorem Ready.unique {task : ServerTask} {c' : Client} {op' : Operation} (h : task.Ready s o c op)
    (h' : task.Ready s o c' op') : c = c' ∧ op = op' := by
  obtain ⟨hload, hurl, hread, hasks⟩ := h
  obtain ⟨hload', hurl', hread', hasks'⟩ := h'
  cases hload.symm.trans hload'
  cases hurl.symm.trans hurl'
  cases hread.symm.trans hread'
  cases hasks.symm.trans hasks'
  exact ⟨rfl, rfl⟩

/-- A run with the same settings and another transport has the same client but for its transport. -/
theorem Ready.of_transport {task : ServerTask} {s' : Surroundings} (h : task.Ready s o c op)
    (hload : s'.loadSettings = s.loadSettings) :
    task.Ready s' o { c with transport := s'.transport } op := by
  obtain ⟨hsettings, hurl, hread, hasks⟩ := h
  exact .intro (hload.trans hsettings) hurl hread hasks

/-- A client is in mock mode only if the line or the settings say so. -/
theorem Ready.mockMode_eq {task : ServerTask} (h : task.Ready s o c op) :
    ∃ settings, s.loadSettings = .ok settings ∧
      c.options.mockMode = (settings.mockMode || o.mock) := by
  cases h with
  | intro hload => exact ⟨_, hload, rfl⟩

/-- The errors of a run are not logged, but told in the end. -/
theorem Ready.sink_eq {task : ServerTask} (h : task.Ready s o c op) : c.sink = .collector := by
  cases h
  rfl

theorem Ready.transport_eq {task : ServerTask} (h : task.Ready s o c op) :
    c.transport = s.transport := by
  cases h
  rfl

/-- A run that is prepared lacks nothing, and any other one fails for what it lacks. -/
theorem prepare_cases (s : Surroundings) (o : GlobalOptions) (task : ServerTask) :
    match task.prepare s o with
    | .ok (c, op) => task.Ready s o c op
    | .error e => task.Lacks s o e := by
  unfold prepare
  cases hload : s.loadSettings with
  | error e => exact .settings hload
  | ok settings =>
    have hclient := client_cases o settings s.transport
    dsimp only [bind, Except.bind]
    cases hurl : (o.server.map normalizeServer).or settings.url with
    | none =>
      rw [hurl] at hclient
      rw [hclient]
      exact .server hload hurl
    | some url =>
      rw [hurl] at hclient
      dsimp only at hclient
      cases hread : Url.read url with
      | error e =>
        rw [hread] at hclient
        rw [hclient]
        exact .url hload hurl hread
      | ok base =>
        rw [hread] at hclient
        rw [hclient]
        have hop := operation_of_asks o settings task
        dsimp only
        cases hasks : task.asks (o.project.or settings.defaultProject) with
        | some op =>
          rw [hasks] at hop
          rw [hop]
          exact .intro hload hurl hread hasks
        | none =>
          rw [hasks] at hop
          obtain ⟨hop, hneeds, hnone⟩ | ⟨hop, hunconfirmed⟩ := hop
          · rw [hop]
            exact .project hload hneeds hnone
          · rw [hop]
            exact .confirmation hunconfirmed

/-- A run that lacks something does nothing, and any other run calls its operation and shows what
that gives. -/
theorem run_of_prepare (task : ServerTask) (t : Trail) :
    match task.prepare s o with
    | .error e => (task.run s o).run t = (.error e, t)
    | .ok (c, op) => (task.run s o).run t = (do
        let a ← Command.call (op.perform c)
        (⟨o.json, s.coloured, s.now⟩ : Display).print (op.exhibit ⟨o.json, s.coloured, s.now⟩ a) :
          Command Unit).run t := by
  unfold prepare run
  rw [Command.run_bind, Command.run_require]
  cases s.loadSettings with
  | error e => rfl
  | ok settings =>
    dsimp only [bind, Except.bind]
    show match (_ : Except RunError (Client × Operation)) with
      | .error e => (Command.require (o.client settings s.transport) >>= _).run t = (.error e, t)
      | .ok (c, op) => (Command.require (o.client settings s.transport) >>= _).run t = _
    rw [Command.run_bind, Command.run_require]
    cases o.client settings s.transport with
    | error e => rfl
    | ok c =>
      have hask := ask_of_operation o settings ⟨o.json, s.coloured, s.now⟩ c task
      dsimp only
      cases hop : task.operation o settings with
      | error e =>
        rw [hop] at hask
        exact hask t
      | ok op =>
        rw [hop] at hask
        exact congrArg (·.run t) hask

/-- The outcome of a run that has called its operation. -/
def outcome (s : Surroundings) (o : GlobalOptions) (c : Client) (op : Operation)
    (journal : Journal) : Outcome :=
  match op.result c with
  | .ok a => s.shows (op.shown ⟨o.json, s.coloured, s.now⟩ a) s.files journal
  | .error e => s.fails (.call e) s.files journal

theorem outcome_of_ok {a : op.Answer} (h : op.result c = .ok a) (journal : Journal) :
    outcome s o c op journal = s.shows (op.shown ⟨o.json, s.coloured, s.now⟩ a) s.files journal := by
  unfold outcome
  rw [h]

theorem outcome_of_error {e : ApiError} (h : op.result c = .error e) (journal : Journal) :
    outcome s o c op journal = s.fails (.call e) s.files journal := by
  unfold outcome
  rw [h]

/-- A run for which nothing is lacking ends as the call of its operation does. -/
theorem outcome_of_ready {task : ServerTask} (h : task.Ready s o c op) :
    ∃ journal, s.carryOut (task.run s o) = outcome s o c op journal ∧
      journal.sent = c.sentTo op.path op.request ∧ journal.alarms = [] := by
  have hprepare := prepare_cases s o task
  have hrun := task.run_of_prepare (s := s) (o := o) { files := s.files }
  cases hprepared : task.prepare s o with
  | error e =>
    rw [hprepared] at hprepare
    exact absurd hprepare h.not_lacks
  | ok prepared =>
    obtain ⟨c', op'⟩ := prepared
    rw [hprepared] at hprepare hrun
    obtain ⟨rfl, rfl⟩ := h.unique hprepare
    obtain ⟨journal, hperform, hgrows⟩ := op.ends_perform c {}
    have hsent : journal.sent = c.sentTo op.path op.request :=
      hgrows.sent.trans (List.nil_append _)
    have halarms : journal.alarms = [] := by
      rw [hgrows.alarms, h.sink_eq]
      rfl
    refine ⟨journal, ?_, hsent, halarms⟩
    dsimp only at hrun
    rw [Command.run_bind, Command.run_call, hperform] at hrun
    cases hresult : op.result c with
    | error e =>
      rw [hresult] at hrun
      rw [outcome_of_error hresult]
      exact Surroundings.carryOut_error hrun rfl
    | ok a =>
      rw [hresult] at hrun
      dsimp only [Except.mapError] at hrun
      rw [Display.prints_print] at hrun
      rw [outcome_of_ok hresult, Surroundings.carryOut_ok hrun]
      exact congrArg (s.shows · s.files journal) (String.empty_append)

/-- A run for which something is lacking fails, and nothing has come of it. -/
theorem outcome_of_lacks {task : ServerTask} {e : RunError} (h : task.Lacks s o e) :
    ∃ e, task.Lacks s o e ∧ s.carryOut (task.run s o) = s.fails e s.files := by
  have hprepare := prepare_cases s o task
  have hrun := task.run_of_prepare (s := s) (o := o) { files := s.files }
  cases hprepared : task.prepare s o with
  | error e =>
    rw [hprepared] at hprepare hrun
    exact ⟨e, hprepare, Surroundings.carryOut_error hrun rfl⟩
  | ok prepared =>
    rw [hprepared] at hprepare
    exact absurd h hprepare.not_lacks

/-- Every run about a server ends in one of these ways. -/
theorem outcome_cases (s : Surroundings) (o : GlobalOptions) (task : ServerTask) :
    (∃ e, task.Lacks s o e ∧ s.carryOut (task.run s o) = s.fails e s.files) ∨
      ∃ c op journal, task.Ready s o c op ∧
        s.carryOut (task.run s o) = outcome s o c op journal ∧
          journal.sent = c.sentTo op.path op.request ∧ journal.alarms = [] := by
  have hprepare := prepare_cases s o task
  cases hprepared : task.prepare s o with
  | error e =>
    rw [hprepared] at hprepare
    exact .inl (outcome_of_lacks hprepare)
  | ok prepared =>
    rw [hprepared] at hprepare
    exact .inr ⟨prepared.1, prepared.2, (outcome_of_ready hprepare).imp fun _ h =>
      ⟨hprepare, h⟩⟩

/-! ### What a run sends -/

theorem journal_outcome (s : Surroundings) (o : GlobalOptions) (c : Client) (op : Operation)
    (journal : Journal) : (outcome s o c op journal).journal = journal := by
  unfold outcome
  cases op.result c <;> rfl

theorem files_outcome (s : Surroundings) (o : GlobalOptions) (c : Client) (op : Operation)
    (journal : Journal) : (outcome s o c op journal).files = s.files := by
  unfold outcome
  cases op.result c <;> rfl

theorem sent_of_lacks {task : ServerTask} {e : RunError} (h : task.Lacks s o e) :
    (s.carryOut (task.run s o)).journal.sent = [] := by
  obtain ⟨e, -, houtcome⟩ := outcome_of_lacks h
  rw [houtcome]
  rfl

theorem sent_of_ready {task : ServerTask} (h : task.Ready s o c op) :
    (s.carryOut (task.run s o)).journal.sent = c.sentTo op.path op.request := by
  obtain ⟨journal, houtcome, hsent, -⟩ := outcome_of_ready h
  rw [houtcome, journal_outcome, hsent]

/-- No run sends a second request. -/
theorem length_sent_le (s : Surroundings) (o : GlobalOptions) (task : ServerTask) :
    (s.carryOut (task.run s o)).journal.sent.length ≤ 1 := by
  rcases task.outcome_cases s o with ⟨e, hlacks, -⟩ | ⟨c, op, journal, hready, -⟩
  · rw [sent_of_lacks hlacks]
    exact Nat.zero_le 1
  · rw [sent_of_ready hready]
    exact c.length_sentTo_le _ _

/-- No run about a server changes a file. -/
theorem files_carryOut (s : Surroundings) (o : GlobalOptions) (task : ServerTask) :
    (s.carryOut (task.run s o)).files = s.files := by
  rcases task.outcome_cases s o with ⟨e, -, houtcome⟩ | ⟨c, op, journal, -, houtcome, -⟩
  · rw [houtcome]
    rfl
  · rw [houtcome, files_outcome]

end ServerTask
end CodeQuality
