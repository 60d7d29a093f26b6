import CodeQuality.Proofs.CommandLine.Task
import CodeQuality.Proofs.Run.Invocation
import CodeQuality.Proofs.Url.Scheme

/-!
# From a command line to a request

A run that is about a server sends one request at most. Which one it is, and where it goes, is found
on the command line, in the environment and in the settings: what the line names goes before what
the environment names, and that before what is set.

* `Operation.sentTo_eq` — the request of an operation.
* `ServerTask.Sends` — what may be sent for a task.
* `Surroundings.sent_of_run` — what a run sends.
-/

namespace CodeQuality

/-! ### Transports -/

/-- Does the transport reach servers of the web only? -/
def Http.Transport.OnlyWeb (transport : Http.Transport) : Prop :=
  ∀ request, request.url.isWeb = false → (transport request).isSeen = false

namespace Operation

variable {c : Client} {base : String}

/-- The request of an operation, if the client has the URL of a server of the web. -/
theorem sentTo_eq (op : Operation) (hbase : Url.read base = .ok c.baseUrl)
    (hweb : c.baseUrl.isWeb = true) (hquery : c.baseUrl.query = none)
    (hfragment : c.baseUrl.fragment = none) :
    ∃ request, op.Describes c.baseUrl request ∧
      c.sentTo op.path op.request =
        if (c.transport request).isSeen then [request] else [] := by
  obtain ⟨url, hurl, hnone, haddress⟩ :=
    Client.endpoint_eq (Url.regular_of_read hbase hweb) hquery hfragment op.isPath_path
  refine ⟨op.request url, op.describes_request hfragment hnone haddress, ?_⟩
  rw [Client.sentTo_of_ok hurl]
  rfl

theorem scheme_request (op : Operation) (url : Url) : (op.request url).url.scheme = url.scheme := by
  unfold request
  split <;> rfl

/-- A server that is none of the web sees nothing of an operation. -/
theorem sentTo_eq_nil (op : Operation) (hbase : Url.read base = .ok c.baseUrl)
    (hweb : c.baseUrl.isWeb = false) (honly : c.transport.OnlyWeb) :
    c.sentTo op.path op.request = [] := by
  unfold Client.sentTo
  split
  · rfl
  · next url hurl =>
    have hscheme := (op.scheme_request url).trans (Client.scheme_endpoint hbase hurl)
    have hforeign : (op.request url).url.isWeb = false := by
      rw [← hweb, Url.isWeb, Url.isWeb, hscheme]
    rw [Client.delivered, honly _ hforeign, if_neg Bool.false_ne_true]

/-! ### Keys -/

/-- The operation with its keys one by one. -/
def split : Operation → Operation
  | branches project => branches project
  | deleteBranch r => deleteBranch r
  | renameBranch project name => renameBranch project name
  | measures r => measures { r with metrics := splitKeys r.metrics }
  | measuresAndMeta component metrics additional =>
    measuresAndMeta component (splitKeys metrics) additional
  | projectMeasures projects metrics => projectMeasures (splitKeys projects) (splitKeys metrics)

theorem method_split (op : Operation) : op.split.method = op.method := by
  cases op <;> rfl

theorem path_split (op : Operation) : op.split.path = op.path := by
  cases op <;> rfl

theorem passes_split (op : Operation) : op.split.Passes = op.Passes := by
  have hkeys (keys : List String) : ",".intercalate (splitKeys keys) = ",".intercalate keys :=
    joinKeys_splitKeys keys
  cases op with
  | branches | deleteBranch | renameBranch => rfl
  | measures | measuresAndMeta | projectMeasures =>
    funext pairs
    simp only [split, Passes, hkeys]

/-- A request for keys one by one is one for the keys as they were given. -/
theorem describes_of_split {op : Operation} {url : Url} {request : Http.Request}
    (h : op.split.Describes url request) : op.Describes url request := by
  obtain ⟨hmethod, haddress, harguments⟩ := h
  rw [method_split] at hmethod harguments
  rw [path_split] at haddress
  rw [passes_split] at harguments
  exact ⟨hmethod, haddress, harguments⟩

end Operation

namespace ServerTask

variable {project? : Option String} {s : Surroundings} {settings : Settings}

theorem asks_split (asked : ServerTask) :
    asked.split.asks project? = (asked.asks project?).map Operation.split := by
  cases asked with
  | listBranches | renameBranch => cases project? <;> rfl
  | deleteBranch target confirmed => cases confirmed <;> cases project? <;> rfl
  | measures component | measuresAndMeta component =>
    cases component <;> cases project? <;> rfl
  | projectMeasures => rfl

theorem needsProject_split {asked : ServerTask} :
    asked.split.NeedsProject ↔ asked.NeedsProject := by
  cases asked <;> exact .rfl

theorem unconfirmed_split {asked : ServerTask} : asked.split.Unconfirmed ↔ asked.Unconfirmed := by
  cases asked <;> exact .rfl

/-! ### Tasks -/

/-- Is this what may be sent for a task, where `server?` and `project?` are the server and the
project that are given or set? -/
structure Sends (asked : ServerTask) (transport : Http.Transport) (server? project? : Option String)
    (sent : List Http.Request) : Prop where
  once : sent.length ≤ 1
  noServer : server? = none → sent = []
  noUrl : ∀ url e, server? = some url → Url.read url = .error e → sent = []
  noWeb : ∀ url base, server? = some url → Url.read url = .ok base → base.isWeb = false →
    transport.OnlyWeb → sent = []
  noProject : asked.NeedsProject → project? = none → sent = []
  unconfirmed : asked.Unconfirmed → sent = []
  request : ∀ url base op, server? = some url → Url.read url = .ok base →
    asked.asks project? = some op → base.isWeb = true → base.query = none → base.fragment = none →
    ∃ request, op.Describes base request ∧
      sent = if (transport request).isSeen then [request] else []

/-- What is sent for a task, the keys of which do not have to be given one by one. -/
theorem sends_run (hload : s.loadSettings = .ok settings) (o : GlobalOptions) (asked : ServerTask) :
    asked.Sends s.transport ((o.server.map normalizeServer).or settings.url)
      (o.project.or settings.defaultProject) (s.carryOut (asked.split.run s o)).journal.sent where
  once := length_sent_le s o asked.split
  noServer hnone := sent_of_lacks (.server hload hnone)
  noUrl url e hurl hread := sent_of_lacks (.url hload hurl hread)
  noWeb url base hurl hread hweb honly := by
    cases hasks : asked.split.asks (o.project.or settings.defaultProject) with
    | none =>
      rcases asked.split.asks_eq_none_iff.mp hasks with ⟨hneeds, hnone⟩ | hunconfirmed
      · exact sent_of_lacks (.project hload hneeds hnone)
      · exact sent_of_lacks (.confirmation hunconfirmed)
    | some op =>
      obtain ⟨c, rfl, hready⟩ := exists_ready hload hurl hread hasks
      rw [sent_of_ready hready]
      rw [← hready.transport_eq] at honly
      exact op.sentTo_eq_nil hread hweb honly
  noProject hneeds hnone := sent_of_lacks (.project hload (needsProject_split.mpr hneeds) hnone)
  unconfirmed h := sent_of_lacks (.confirmation (unconfirmed_split.mpr h))
  request url base op hurl hread hasks hweb hquery hfragment := by
    have hsplit : asked.split.asks (o.project.or settings.defaultProject) = some op.split := by
      rw [asks_split, hasks]
      rfl
    obtain ⟨c, rfl, hready⟩ := exists_ready hload hurl hread hsplit
    rw [sent_of_ready hready, ← hready.transport_eq]
    obtain ⟨request, hdescribes, hsent⟩ := op.split.sentTo_eq hread hweb hquery hfragment
    exact ⟨request, Operation.describes_of_split hdescribes, hsent⟩

end ServerTask

/-! ### Runs -/

namespace Surroundings

open Invocation

variable {s : Surroundings} {settings : Settings} {arguments : List String} {o : Outcome}

/-- What a run sends is what its line asks for, of the server and for the project that the line, the
environment or the settings name. Only a command for branches or measures sends anything. -/
theorem sent_of_run (hrun : s.run arguments = .ok o) (hload : s.loadSettings = .ok settings)
    (hservers : ((line arguments).values serverOption).length ≤ 1)
    (hprojects : ((line arguments).values projectOption).length ≤ 1) :
    match (line arguments).serverTask? with
    | none => (line arguments).command? ∉ [some "branch", some "measure"] ∧ o.journal.sent = []
    | some asked =>
      asked.Sends s.transport
        (((((line arguments).values serverOption).head?.or s.server).map normalizeServer).or
          settings.url)
        ((((line arguments).values projectOption).head?.or s.project).or settings.defaultProject)
        o.journal.sent := by
  obtain ⟨i, hread, rfl⟩ := map_ok_iff.mp hrun
  have htask := task_of_read hread
  rw [← server_of_read hread hservers, ← project_of_read hread hprojects]
  split
  · next hnone =>
    rw [hnone] at htask
    exact ⟨command?_of_read hread hnone, congrArg Journal.sent (journal_run_of_ne htask)⟩
  · next asked hasked =>
    rw [hasked] at htask
    rw [run_of_server htask]
    exact ServerTask.sends_run hload i.options asked

/-- Keys with and without commas, of a server and for a project that are named on the line, or else
in the environment, or else in the settings. -/
theorem sent_of_run_measures :
    let files : FileTree := ⟨[(["config.toml"], .file (Text.octets
      "[server]\nurl = \"https://kept\"\ndefault_project = \"third\"\n".toList))]⟩
    let around (server project : Option String) : Surroundings :=
      { server, project, settingsPath := some "config.toml", files, now := ⟨0, 0⟩,
        transport := fun _ => .unanswered }
    let keys := ["measure", "get", "-mncloc,bugs", "--metric", "coverage", "-bmain"]
    let asks (s : Surroundings) (arguments : List String) (url component : String) : Prop :=
      ∃ o base request, s.run arguments = .ok o ∧ Url.read url = .ok base ∧
        (Operation.measures
          { component, metrics := ["ncloc,bugs", "coverage"], branch := some "main" }).Describes
            base request ∧
        o.journal.sent = [request]
    asks (around (some "two/") (some "second")) (keys ++ ["-s", "one", "-pfirst"]) "https://one"
        "first" ∧
      asks (around (some "two/") (some "second")) keys "https://two" "second" ∧
      asks (around none none) keys "https://kept" "third" := by
  intro files around keys asks
  have hload : (around none none).loadSettings =
      .ok { url := some "https://kept", defaultProject := some "third" } :=
    toOption_eq_some_iff.mp (by decide +kernel)
  have hasks {server project : Option String} {arguments : List String} {url component : String}
      (hruns : ((around server project).run arguments).toOption.isSome = true)
      (htask : (line arguments).serverTask? =
        some (.measures none ["ncloc,bugs", "coverage"] (some "main") none))
      (hservers : ((line arguments).values serverOption).length ≤ 1)
      (hprojects : ((line arguments).values projectOption).length ≤ 1)
      (hserver : (((((line arguments).values serverOption).head?.or server).map
        normalizeServer).or (some "https://kept")) = some url)
      (hproject : (((line arguments).values projectOption).head?.or project).or (some "third") =
        some component)
      (hbase : (Url.read url).toOption.any (fun base =>
        base.isWeb && base.query.isNone && base.fragment.isNone) = true) :
      asks (around server project) arguments url component := by
    obtain ⟨o, ho⟩ := Option.isSome_iff_exists.mp hruns
    have hrun := toOption_eq_some_iff.mp ho
    obtain ⟨base, hread, hplain⟩ := (Option.any_eq_true _ _).mp hbase
    simp only [Bool.and_eq_true, Option.isNone_iff_eq_none] at hplain
    obtain ⟨⟨hweb, hquery⟩, hfragment⟩ := hplain
    have hread := toOption_eq_some_iff.mp hread
    have hsent := sent_of_run hrun hload hservers hprojects
    rw [htask] at hsent
    dsimp only [around] at hsent
    rw [hserver, hproject] at hsent
    obtain ⟨request, hdescribes, hsent⟩ := hsent.request url base _ rfl hread rfl hweb hquery hfragment
    exact ⟨o, base, request, hrun, hread, hdescribes, hsent⟩
  refine ⟨hasks ?_ ?_ ?_ ?_ ?_ ?_ ?_, hasks ?_ ?_ ?_ ?_ ?_ ?_ ?_, hasks ?_ ?_ ?_ ?_ ?_ ?_ ?_⟩ <;>
    decide +kernel

end Surroundings
end CodeQuality
