import CodeQuality.Proofs.Response
import CodeQuality.Proofs.Run.Answers
import CodeQuality.Proofs.Run.Deletion
import CodeQuality.Proofs.Text.Octets

/-!
# What a run shows in JSON can be shown again

A run that asks a server something and shows the answer in JSON shows one document and a line break.
The document is the answer with its dates cut to milliseconds, and a server that sends it as an
answer makes the same command show it once more, octet by octet.

* `Ran.Calls` — the client and the operation of a run.
* `Ran.Echoes` — what is said of the text that a run shows.
* `Ran.echoes_of_run` — it holds of every run that shows an answer in JSON.
-/

namespace CodeQuality

open CommandLine Invocation

/-! ### Responses that hold a text -/

namespace Http.Response

/-- Is the body the text in UTF-8, and does the header name no other encoding? -/
structure Spells (response : Response) (text : String) : Prop where
  body : response.body = Text.octets text.toList
  charset :
    ((response.contentType.bind MediaType.charset?).bind Charset.ofLabel?).getD .utf8 = .utf8

/-- A text that begins with a brace has no mark at its front. -/
theorem text_of_spells {response : Response} {text : String} (h : response.Spells text)
    (hhead : text.toList.head? = some '\x7b') : response.text = text := by
  obtain ⟨cs, hcs⟩ : ∃ cs, text.toList = '\x7b' :: cs := List.head?_eq_some_iff.mp hhead
  have hlossy : Text.ofOctetsLossy (Text.octets text.toList) = text.toList := by
    rw [Text.ofOctetsLossy, Text.read_octets, List.map_map]
    exact List.map_id _
  have hbody : response.body = 0x7B :: Text.octets cs := by
    rw [h.body, hcs]
    rfl
  have hutf : response.text =
      String.ofList (Charset.decode .utf8 response.body) := by
    rw [Response.text, hbody]
    show String.ofList (Charset.decode _ _) = _
    rw [h.charset]
  rw [hutf, h.body, Charset.decode, hlossy, String.ofList_toList]

end Http.Response

/-! ### Runs -/

namespace Ran

/-- Is the run the call of an operation by a client: of what its line asks for, of the server that
it is about, and over its transport? -/
structure Calls (r : Ran) (c : Client) (op : Operation) : Prop where
  base : r.base? = some c.baseUrl
  transport : c.transport = r.around.transport
  asked : ∃ asked, r.line.serverTask? = some asked ∧ asked.split.asks r.project? = some op

/-- Does the text that a run has shown hold what the operation gave, and does the same command show
it again? -/
structure Echoes (r : Ran) (op : Operation) (a : op.Answer) (text : String) : Prop where
  /-- the text is one document, with a line break behind it -/
  document : ∃ v : Json.Value, text = v.pretty ++ "\n" ∧ Json.Value.read v.pretty = .ok v.canonical
  /-- it says what the operation gave, with dates cut to milliseconds -/
  answer : op.readAnswer text = .ok (op.cut a)
  /-- a server that answers the same request with the text makes the same command show it -/
  again : ∃ request, r.sent = [request] ∧
    ∀ (transport : Http.Transport) (response : Http.Response) (coloured : Bool) (now : Instant),
      transport request = .answered response →
      200 ≤ response.status.code ∧ response.status.code ≤ 299 →
      response.Spells (op.body text) →
      ∃ o, ({ r.around with files := r.files, transport, coloured, now } : Surroundings).run
          r.arguments = .ok o ∧ o.exitCode = 0 ∧ o.output = text

/-- The commands that ask a server something. -/
def askingCommands : List (List String) :=
  [["branch", "list"], ["measure", "get"], ["measure", "meta"], ["measure", "projects"]]

variable {r : Ran} {asked : ServerTask} {i : Invocation} {c : Client} {op : Operation}

/-- What such a command asks for is an operation that asks. -/
theorem method_of_asking (hcommands : r.commands ∈ askingCommands)
    (hline : r.line.serverTask? = some asked) (hasks : asked.split.asks r.project? = some op) :
    op.method = .get := by
  cases hmethod : op.method with
  | get => rfl
  | post =>
    exfalso
    obtain ⟨target, -, rfl, -⟩ | ⟨name, -, rfl, -⟩ := ServerTask.asks_post hasks hmethod
    · rw [(deletes_of_serverTask? hline).1] at hcommands
      exact absurd hcommands (by decide)
    · have hrename : r.commands = ["branch", "rename"] :=
        congrArg Prod.fst (renames_of_serverTask? hline)
      rw [hrename] at hcommands
      exact absurd hcommands (by decide)

/-- A run of such a command that is carried out asks for something. -/
theorem asks_of_asking (hresult : r.result = r.around.run r.arguments) {o : Outcome}
    (hran : r.result = .ok o) (hcommands : r.commands ∈ askingCommands) :
    ∃ asked i, r.Asks asked i ∧ o = i.run r.around := by
  obtain ⟨-, hcommand, -⟩ | hasks := cases_of_ok hresult hran
  · exfalso
    refine hcommand ?_
    show r.commands.head? ∈ _
    simp only [askingCommands, List.mem_cons, List.not_mem_nil, or_false] at hcommands
    obtain h | h | h | h := hcommands <;> (rw [h]; decide)
  · exact hasks

/-- The client of a run without mock mode is not in mock mode. -/
theorem Asks.mockMode_eq_false (h : r.Asks asked i) (hmock : r.line.has mockOption = false)
    (hsettings : ∀ settings, r.around.loadSettings = .ok settings → settings.mockMode = false)
    (hready : asked.split.Ready r.around i.options c op) : c.options.mockMode = false := by
  obtain ⟨settings, hload, hmode⟩ := hready.mockMode_eq
  rw [hmode, hsettings settings hload, h.mock, hmock]
  rfl

/-- The same command with other surroundings, but with the same settings, shows what its operation
gives there. -/
theorem Asks.run_of_result (h : r.Asks asked i) {a : op.Answer}
    (hready : asked.split.Ready r.around i.options c op) {around : Surroundings}
    (hserver : around.server = r.around.server) (hproject : around.project = r.around.project)
    (hload : around.loadSettings = r.around.loadSettings)
    (hresult : op.result { c with transport := around.transport } = .ok a) :
    ∃ o, around.run r.arguments = .ok o ∧ o.exitCode = 0 ∧
      o.output = op.shown ⟨i.options.json, around.coloured, around.now⟩ a := by
  have hagain := hready.of_transport hload
  obtain ⟨journal, houtcome, -⟩ := ServerTask.outcome_of_ready hagain
  rw [ServerTask.outcome_of_ok hresult] at houtcome
  have hi : i.run around = around.shows
      (op.shown ⟨i.options.json, around.coloured, around.now⟩ a) around.files journal :=
    (run_of_server h.task).trans houtcome
  refine ⟨i.run around, ?_, ?_, ?_⟩
  · rw [Surroundings.run, hserver, hproject, h.read]
    rfl
  · exact congrArg (·.exitCode) hi
  · exact congrArg (·.output) hi

/-- The same command with another transport shows what its operation makes of the response. -/
theorem Asks.run_again (h : r.Asks asked i) {url : Url} {a : op.Answer}
    (hready : asked.split.Ready r.around i.options c op) (hurl : c.endpoint op.path = .ok url)
    {around : Surroundings} (hserver : around.server = r.around.server)
    (hproject : around.project = r.around.project)
    (hload : around.loadSettings = r.around.loadSettings) {response : Http.Response}
    (hanswered : around.transport (op.request url) = .answered response)
    (hsuccess : response.status.isSuccess = true)
    (hdecode : op.decode c.options.mockMode response.text = .ok a) :
    ∃ o, around.run r.arguments = .ok o ∧ o.exitCode = 0 ∧
      o.output = op.shown ⟨i.options.json, around.coloured, around.now⟩ a :=
  h.run_of_result hready hserver hproject hload
    (Client.answer_of_success hurl hanswered hsuccess hdecode)

/-- A run without mock mode that shows an answer in JSON shows what its call gave, and the same
command shows it again when a server answers with it. -/
theorem echoes_of_run (hresult : r.result = r.around.run r.arguments) {o : Outcome}
    (hran : r.result = .ok o) (hsuccess : o.exitCode = 0) (hcommands : r.commands ∈ askingCommands)
    (hjson : r.line.has jsonOption = true) (hmock : r.line.has mockOption = false)
    (hsettings : ∀ settings, r.around.loadSettings = .ok settings → settings.mockMode = false) :
    ∃ (c : Client) (op : Operation) (a : op.Answer), r.Calls c op ∧ c.options.mockMode = false ∧
      (op.perform c).outcome.1 = .ok a ∧
        ((∀ t ∈ op.dates a, 0 ≤ t.year ∧ t.year ≤ 9999) → r.Echoes op a o.output) := by
  obtain ⟨asked, i, hasked, rfl⟩ := asks_of_asking hresult hran hcommands
  obtain ⟨c, op, a, url, hready, ha, hurl, hsent, houtput⟩ := hasked.shown hran hsuccess
  obtain ⟨hasks, hbase, -, htransport⟩ := hasked.of_ready hready
  have hget := method_of_asking hcommands hasked.line hasks
  have hmode := hasked.mockMode_eq_false hmock hsettings hready
  have hperform : (op.perform c).outcome.1 = .ok a := (op.outcome_perform c).trans ha
  have hdecode : ∃ body, op.decode false body = .ok a := by
    obtain ⟨url, response, hparts⟩ := Client.sentTo_of_answer ha
    rw [← hmode]
    exact ⟨response.text, hparts.2.2.2.2⟩
  obtain ⟨body, hdecode⟩ := hdecode
  rw [hasked.json, hjson] at houtput
  refine ⟨c, op, a, ⟨hbase, htransport, asked, hasked.line, hasks⟩, hmode, hperform, ?_⟩
  intro hyears
  obtain ⟨hdocument, hread, hbody, hshown⟩ :=
    Operation.echo hget hdecode hyears r.around.coloured r.around.now
  rw [← houtput] at hdocument hread hbody hshown
  refine ⟨hdocument, hread, op.request url, hsent, ?_⟩
  intro transport response coloured now hanswered hcode hspells
  have htext : response.text = op.body (i.run r.around).output := by
    refine Http.Response.text_of_spells hspells ?_
    rw [houtput]
    exact Operation.head?_body hget _ _ a
  have hfiles : r.files = r.around.files := by
    rw [files, hran]
    exact (congrArg (·.files) hasked.run_eq).trans (asked.split.files_carryOut _ _)
  let again : Surroundings := { r.around with files := r.files, transport, coloured, now }
  have hserver : again.server = r.around.server := rfl
  have hproject : again.project = r.around.project := rfl
  have hload : again.loadSettings = r.around.loadSettings := by
    show Surroundings.loadSettings { r.around with files := r.files, transport, coloured, now } = _
    rw [hfiles]
    rfl
  have hagainDecode : op.decode c.options.mockMode response.text = .ok (op.cut a) := by
    rw [hmode, htext]
    exact hbody
  obtain ⟨o, hrun, hexit, hagain⟩ := hasked.run_again hready hurl hserver hproject hload hanswered
    (response.status.isSuccess_iff.mpr hcode) hagainDecode
  refine ⟨o, hrun, hexit, ?_⟩
  rw [hagain, hasked.json, hjson]
  exact hshown coloured now

/-- A branch whose date has less than a millisecond that is cut off. -/
theorem echoes_of_run_branches :
    let body := "\x7b\"branches\":[\x7b\"name\":\"m\",\"analysisDate\":" ++
      "\"2017-01-01T00:00:00.0009Z\"\x7d]\x7d"
    let around : Surroundings :=
      { server := some "http://host", settingsPath := some "config.toml", now := ⟨0, 0⟩,
        transport := fun _ => .answered ⟨⟨200⟩, none, Text.octets body.toList⟩ }
    let arguments := ["-p", "demo", "branch", "list", "--json"]
    let r : Ran := { arguments, around, result := around.run arguments }
    let entries : List BranchLike :=
      [.branch { name := "m", analysisDate := some ⟨1483228800, 900000⟩ }]
    ∃ o, r.result = .ok o ∧ o.exitCode = 0 ∧ r.commands ∈ askingCommands ∧
      r.line.has jsonOption = true ∧ r.line.has mockOption = false ∧
      (∀ settings, r.around.loadSettings = .ok settings → settings.mockMode = false) ∧
      r.Echoes (.branches "demo") entries o.output := by
  intro body around arguments r entries
  have hsuccess : r.result.toOption.map (·.exitCode) = some 0 := by decide +kernel
  obtain ⟨o, hran, hexit⟩ := Option.map_eq_some_iff.mp hsuccess
  have hran := toOption_eq_some_iff.mp hran
  have hcommands : r.commands ∈ askingCommands := by decide +kernel
  have hjson : r.line.has jsonOption = true := by decide +kernel
  have hmock : r.line.has mockOption = false := by decide +kernel
  have hload : r.around.loadSettings = .ok {} := toOption_eq_some_iff.mp (by decide +kernel)
  have hsettings : ∀ settings, r.around.loadSettings = .ok settings →
      settings.mockMode = false := by
    intro settings h
    obtain rfl := Except.ok.inj (hload.symm.trans h)
    rfl
  refine ⟨o, hran, hexit, hcommands, hjson, hmock, hsettings, ?_⟩
  obtain ⟨c, op, a, ⟨hbase, htransport, asked, hasked, hasks⟩, hmode, hperform, hechoes⟩ :=
    echoes_of_run rfl hran hexit hcommands hjson hmock hsettings
  obtain rfl : asked = .listBranches :=
    Option.some.inj (hasked.symm.trans (by decide +kernel))
  have hproject : r.project? = some "demo" := by decide +kernel
  rw [hproject] at hasks
  cases hasks
  -- The client is given the entries of the body.
  have hbaseUrl : r.base? = some
      { scheme := "http".toList, host := some (.domain "host".toList),
        path := .segments [[]] } := by decide +kernel
  have hurl : c.endpoint (Operation.branches "demo").path = .ok
      { scheme := "http".toList, host := some (.domain "host".toList),
        path := .segments ["api".toList, "project_branches".toList, "list".toList] } := by
    unfold Client.endpoint
    rw [← Option.some.inj (hbaseUrl.symm.trans hbase)]
    exact toOption_eq_some_iff.mp (by decide +kernel)
  have htext : Http.Response.text ⟨⟨200⟩, none, Text.octets body.toList⟩ = body :=
    Http.Response.text_of_spells ⟨rfl, rfl⟩ (by decide +kernel)
  have hlisted : (Client.branchListSchema.read body).toOption.map
      (fun answer => List.map BranchLike.ofVal answer.1) = some entries := by decide +kernel
  obtain ⟨answer, hread, hentries⟩ := Option.map_eq_some_iff.mp hlisted
  have hdecode : (Operation.branches "demo").decode false body = .ok entries :=
    map_ok_iff.mpr ⟨answer, toOption_eq_some_iff.mp hread, hentries⟩
  have hgiven : (Operation.branches "demo").result c = .ok entries := by
    have hanswered : c.transport = around.transport := htransport
    unfold Operation.result
    rw [hmode]
    refine Client.answer_of_success hurl (by rw [hanswered]) rfl ?_
    rw [htext]
    exact hdecode
  obtain rfl : a = entries :=
    Except.ok.inj (hperform.symm.trans ((Operation.outcome_perform c _).trans hgiven))
  exact hechoes (by decide +kernel)

end Ran
end CodeQuality
