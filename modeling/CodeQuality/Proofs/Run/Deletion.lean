import CodeQuality.Proofs.CommandLine.Help
import CodeQuality.Proofs.Run.Ran
import CodeQuality.Proofs.Run.Request
import CodeQuality.Proofs.Run.Turns
import CodeQuality.Proofs.Url.Place

/-!
# Nothing is deleted by mistake

What a run deletes is the one branch or pull request that its line names, of the project that the
run is about, and only after a confirmation. A line that names no target, or more than one, or that
does not confirm the deletion, deletes nothing and fails; and no other command sends anything that
could be taken for a deletion. What is shown in the end is what has been sent.

* `Visit.session` — many runs, one after the other.
* `Ran.Deliberate` — how a run deals with deletions.
* `Visit.deliberate_session` — every run of every session does so.
-/

namespace CodeQuality

open CommandLine Invocation

/-! ### Operations that tell something -/

/-- The name and the value under which a request has the target. -/
def DeleteTarget.pair : DeleteTarget → String × String
  | branch name => ("branch", name)
  | pullRequest id => ("pullRequest", id)

theorem DeleteTarget.pairs_request (target : DeleteTarget) (project : String) :
    (target.request project).pairs = [("project", project), target.pair] := by
  cases target <;> rfl

theorem DeleteTarget.text_request (target : DeleteTarget) (project : String) :
    (target.request project).text = target.text := by
  cases target <;> rfl

/-- Does the request tell the server these pairs? -/
def Http.Request.Tells (request : Http.Request) (pairs : List (String × String)) : Prop :=
  request.method = .post ∧ ∃ form, request.form = some form ∧ Form.decode form.toList = pairs

namespace Operation

theorem method_request (op : Operation) (url : Url) : (op.request url).method = op.method := by
  unfold request
  split
  · next h => exact h.symm
  · next h => exact h.symm

theorem tells_request {op : Operation} (h : op.method = .post) (url : Url) :
    (op.request url).Tells op.pairs := by
  refine ⟨(op.method_request url).trans h, Form.text op.pairs, ?_, ?_⟩
  · rw [request, h]
    rfl
  · rw [Form.text, String.toList_ofList, Form.decode_encode_pairs]

end Operation

namespace ServerTask

variable {project? : Option String} {asked : ServerTask} {op : Operation}

/-- Only a deletion that was confirmed and a renaming tell a server something. -/
theorem asks_post (hasks : asked.split.asks project? = some op) (hpost : op.method = .post) :
    (∃ target project, asked = .deleteBranch target true ∧ project? = some project ∧
        op = .deleteBranch (target.request project)) ∨
      ∃ name project, asked = .renameBranch name ∧ project? = some project ∧
        op = .renameBranch project name := by
  cases asked with
  | listBranches =>
    obtain ⟨project, -, rfl⟩ := Option.map_eq_some_iff.mp hasks
    nomatch hpost
  | deleteBranch target confirmed =>
    cases confirmed with
    | false => nomatch hasks
    | true =>
      obtain ⟨project, hproject, rfl⟩ := Option.map_eq_some_iff.mp hasks
      exact .inl ⟨target, project, rfl, hproject, rfl⟩
  | renameBranch name =>
    obtain ⟨project, hproject, rfl⟩ := Option.map_eq_some_iff.mp hasks
    exact .inr ⟨name, project, rfl, hproject, rfl⟩
  | measures =>
    obtain ⟨component, -, rfl⟩ := Option.map_eq_some_iff.mp hasks
    nomatch hpost
  | measuresAndMeta =>
    obtain ⟨component, -, rfl⟩ := Option.map_eq_some_iff.mp hasks
    nomatch hpost
  | projectMeasures =>
    cases hasks
    nomatch hpost

end ServerTask

/-! ### Runs that delete -/

namespace Ran

/-- Is the run to delete what its line names, and does the line confirm it? -/
def Deletes (r : Ran) (target : DeleteTarget) : Prop :=
  r.commands = ["branch", "delete"] ∧ r.line.has confirmOption = true ∧
    r.line.target? = some target

/-- Is the run to rename the main branch? -/
def Renames (r : Ran) (name : String) : Prop :=
  program.resolve r.line.words = (["branch", "rename"], [name])

/-- Does the run deal with deletions as it should? -/
structure Deliberate (r : Ran) : Prop where
  /-- nothing else tells a server something -/
  tells : ∀ request ∈ r.sent, request.method = .post →
    (∃ target, r.Deletes target) ∨ ∃ name, r.Renames name
  /-- nothing else arrives where a deletion does: below the base at its path, or, if the base ends
  in a path, at any place that ends in that of deletions -/
  arrives : r.around.transport.OnlyWeb → ∀ base, r.base? = some base →
    ∀ request ∈ r.sent, request.method = .post →
      ∀ front, request.url.place.text = front ++ "/api/project_branches/delete" →
        base.query = none ∧ base.fragment = none ∨
          front = Text.trimEndWhile (· = '/') base.place.text →
        ∃ target, r.Deletes target
  /-- the one target that the line names is deleted, in the project of the run -/
  deletes : ∀ target, r.Deletes target → ∀ request ∈ r.sent,
    ∃ project, r.project? = some project ∧ request.Tells [("project", project), target.pair]
  /-- a renaming names no branch or pull request that could be deleted -/
  renames : ∀ name, r.Renames name → ∀ request ∈ r.sent,
    ∃ project, r.project? = some project ∧
      request.Tells [("project", project), ("name", name)]
  /-- without a confirmation, without a target or with two of them, nothing is sent -/
  unclear : r.commands = ["branch", "delete"] →
    r.line.has helpOption = false → r.line.has versionOption = false →
    r.line.has confirmOption = false ∨ r.line.target? = none → r.sent = [] ∧ r.exitCode ≠ 0
  /-- what is shown has been sent -/
  shows : ∀ target, r.Deletes target → r.line.has jsonOption = false →
    ∀ o, r.result = .ok o → o.exitCode = 0 →
      ∃ project request, r.project? = some project ∧ r.sent = [request] ∧
        request.Tells [("project", project), target.pair] ∧
        o.output = ({ colour := some .green, bold := true } : Style).paint r.around.coloured "✓" ++
          " " ++ ("Deleted " ++ target.text ++ " of " ++ project) ++ "\n"

/-! ### What the line asks for -/

variable {r : Ran} {target : DeleteTarget} {name : String} {confirmed : Bool} {i : Invocation}
  {asked : ServerTask} {request : Http.Request}

theorem serverTask?_of_commands (h : r.commands = ["branch", "delete"]) :
    r.line.serverTask? =
      r.line.target?.map fun target => .deleteBranch target (r.line.has confirmOption) := by
  unfold commands at h
  unfold Line.serverTask?
  generalize program.resolve r.line.words = found at h
  obtain ⟨names, operands⟩ := found
  obtain rfl : names = ["branch", "delete"] := h
  rfl

theorem serverTask?_of_deletes (h : r.Deletes target) :
    r.line.serverTask? = some (.deleteBranch target true) := by
  obtain ⟨hcommands, hconfirmed, htarget⟩ := h
  rw [serverTask?_of_commands hcommands, htarget, hconfirmed]
  rfl

theorem serverTask?_of_renames (h : r.Renames name) :
    r.line.serverTask? = some (.renameBranch name) := by
  unfold Line.serverTask?
  rw [h]
  rfl

theorem deletes_of_serverTask? (h : r.line.serverTask? = some (.deleteBranch target true)) :
    r.Deletes target := by
  have hcommands : r.commands = ["branch", "delete"] := by
    unfold Line.serverTask? at h
    unfold commands
    split at h
    case h_2 heq => rw [heq]
    case h_4 => obtain ⟨scope, -, h⟩ := Option.map_eq_some_iff.mp h; nomatch h
    all_goals nomatch h
  rw [serverTask?_of_commands hcommands] at h
  obtain ⟨found, htarget, heq⟩ := Option.map_eq_some_iff.mp h
  obtain ⟨rfl, hconfirmed⟩ := ServerTask.deleteBranch.inj heq
  exact ⟨hcommands, hconfirmed, htarget⟩

theorem renames_of_serverTask? (h : r.line.serverTask? = some (.renameBranch name)) :
    r.Renames name := by
  unfold Line.serverTask? at h
  unfold Renames
  split at h
  case h_3 heq =>
    cases h
    exact heq
  case h_2 => obtain ⟨target, -, h⟩ := Option.map_eq_some_iff.mp h; nomatch h
  case h_4 => obtain ⟨scope, -, h⟩ := Option.map_eq_some_iff.mp h; nomatch h
  all_goals nomatch h

/-! ### What a run sends -/

/-- What tells a server something is a deletion that the line names and confirms, or a renaming. -/
theorem told_of_sent (hresult : r.result = r.around.run r.arguments)
    (h : request ∈ r.sent) (hpost : request.method = .post) :
    ∃ (c : Client) (op : Operation) (project : String),
      r.base? = some c.baseUrl ∧ (∃ base, Url.read base = .ok c.baseUrl) ∧
        c.transport = r.around.transport ∧ request ∈ c.sentTo op.path op.request ∧
        r.project? = some project ∧
        ((∃ target, r.Deletes target ∧ op = .deleteBranch (target.request project)) ∨
          ∃ name, r.Renames name ∧ op = .renameBranch project name) := by
  obtain ⟨asked, c, op, hasked, hasks, hbase, hread, htransport, hsent⟩ :=
    operation_of_sent hresult h
  obtain ⟨url, -, rfl⟩ := c.mem_sentTo hsent
  rw [op.method_request] at hpost
  obtain ⟨target, project, rfl, hproject, rfl⟩ | ⟨name, project, rfl, hproject, rfl⟩ :=
    ServerTask.asks_post hasks hpost
  · exact ⟨c, _, project, hbase, hread, htransport, hsent, hproject,
      .inl ⟨target, deletes_of_serverTask? hasked, rfl⟩⟩
  · exact ⟨c, _, project, hbase, hread, htransport, hsent, hproject,
      .inr ⟨name, renames_of_serverTask? hasked, rfl⟩⟩

theorem tells_of_deletes (hresult : r.result = r.around.run r.arguments)
    (hdeletes : r.Deletes target) (h : request ∈ r.sent) :
    ∃ project, r.project? = some project ∧
      request.Tells [("project", project), target.pair] := by
  obtain ⟨asked, c, op, hasked, hasks, -, -, -, hsent⟩ := operation_of_sent hresult h
  rw [serverTask?_of_deletes hdeletes] at hasked
  cases hasked
  obtain ⟨project, hproject, rfl⟩ := Option.map_eq_some_iff.mp hasks
  obtain ⟨url, -, rfl⟩ := c.mem_sentTo hsent
  refine ⟨project, hproject, ?_⟩
  rw [← target.pairs_request]
  exact Operation.tells_request rfl url

theorem tells_of_renames (hresult : r.result = r.around.run r.arguments) (hrenames : r.Renames name)
    (h : request ∈ r.sent) :
    ∃ project, r.project? = some project ∧
      request.Tells [("project", project), ("name", name)] := by
  obtain ⟨asked, c, op, hasked, hasks, -, -, -, hsent⟩ := operation_of_sent hresult h
  rw [serverTask?_of_renames hrenames] at hasked
  cases hasked
  obtain ⟨project, hproject, rfl⟩ := Option.map_eq_some_iff.mp hasks
  obtain ⟨url, -, rfl⟩ := c.mem_sentTo hsent
  exact ⟨project, hproject, Operation.tells_request rfl url⟩

/-- Only a deletion arrives where a deletion does. -/
theorem deletes_of_arrives (hresult : r.result = r.around.run r.arguments)
    (honly : r.around.transport.OnlyWeb) {base : Url} (hbase : r.base? = some base)
    (h : request ∈ r.sent) (hpost : request.method = .post) {front : String}
    (hplace : request.url.place.text = front ++ "/api/project_branches/delete")
    (hfront : base.query = none ∧ base.fragment = none ∨
      front = Text.trimEndWhile (· = '/') base.place.text) :
    ∃ target, r.Deletes target := by
  obtain ⟨c, op, project, hfound, ⟨text, hread⟩, htransport, hsent, -, htold⟩ :=
    told_of_sent hresult h hpost
  obtain rfl := Option.some.inj (hfound.symm.trans hbase)
  obtain ⟨target, hdeletes, -⟩ | ⟨name, -, rfl⟩ := htold
  · exact ⟨target, hdeletes⟩
  · exfalso
    have hweb : c.baseUrl.isWeb = true := by
      cases hweb : c.baseUrl.isWeb with
      | true => rfl
      | false =>
        rw [← htransport] at honly
        rw [Operation.sentTo_eq_nil _ hread hweb honly] at hsent
        nomatch hsent
    have hregular := Url.regular_of_read hread hweb
    obtain ⟨url, hurl, rfl⟩ := c.mem_sentTo hsent
    have hne : "/api/project_branches/rename" ≠ "/api/project_branches/delete" := by decide
    rcases hfront with ⟨hquery, hfragment⟩ | rfl
    · obtain ⟨place, hends⟩ := Operation.place_of_clean hregular hurl hquery hfragment
      -- Both paths have the same length, so the one would be the other.
      have hlists : place.toList ++ "/api/project_branches/rename".toList =
          front.toList ++ "/api/project_branches/delete".toList := by
        rw [← String.toList_append, ← String.toList_append, ← hplace, hends]
        rfl
      exact hne (String.toList_injective (List.append_inj' hlists (by decide)).2)
    · have hpath := @Operation.path_of_place _ _ _ hregular hurl
        (.deleteBranch (.ofBranch project name)) hplace
      exact hne hpath

/-! ### What a run leaves undone -/

/-- A deletion that is not clear is none: it is not understood, or it lacks a confirmation. -/
theorem fails_of_unclear (hresult : r.result = r.around.run r.arguments)
    (hcommands : r.commands = ["branch", "delete"]) (hhelp : r.line.has helpOption = false)
    (hversion : r.line.has versionOption = false)
    (h : r.line.has confirmOption = false ∨ r.line.target? = none) :
    r.sent = [] ∧ r.exitCode ≠ 0 := by
  cases hran : r.result with
  | error e =>
    refine ⟨by rw [sent, hran], ?_⟩
    rw [exitCode, hran]
    dsimp only
    intro he
    have hread : read r.around.server r.around.project r.arguments = .error e :=
      map_error_iff.mp (hresult.symm.trans hran)
    have hleaf := leaf_of_names (P := fun d => d.commands.isEmpty = true) (by decide) hcommands
    obtain hasks | hasks | hasks := help_of_read hread he
    · exact absurd (hhelp.symm.trans hasks) Bool.false_ne_true
    · exact absurd (hversion.symm.trans hasks) Bool.false_ne_true
    · exact hasks (List.isEmpty_iff.mp hleaf)
  | ok o =>
    obtain ⟨-, hcommand, -⟩ | ⟨asked, i, hasked, rfl⟩ := cases_of_ok hresult hran
    · rw [Line.command?, show (program.resolve r.line.words).1 = _ from hcommands] at hcommand
      exact absurd List.mem_cons_self hcommand
    · have hline := hasked.line
      rw [serverTask?_of_commands hcommands] at hline
      obtain ⟨target, htarget, rfl⟩ := Option.map_eq_some_iff.mp hline
      have hunconfirmed : r.line.has confirmOption = false :=
        h.resolve_right (by rw [htarget]; exact Option.some_ne_none _)
      rw [hunconfirmed] at hasked
      have hlacks : (ServerTask.deleteBranch target false).split.Lacks r.around i.options
          .unconfirmed := .confirmation rfl
      obtain ⟨e, -, houtcome⟩ := ServerTask.outcome_of_lacks hlacks
      rw [hasked.run_eq, houtcome] at hran
      rw [sent, exitCode, hran]
      exact ⟨rfl, e.exitCode_ne_success⟩

/-- A deletion that succeeds shows what has been sent. -/
theorem shows_of_deletes (hresult : r.result = r.around.run r.arguments)
    (hdeletes : r.Deletes target) (hjson : r.line.has jsonOption = false) {o : Outcome}
    (hran : r.result = .ok o) (hsuccess : o.exitCode = 0) :
    ∃ project request, r.project? = some project ∧ r.sent = [request] ∧
      request.Tells [("project", project), target.pair] ∧
      o.output = ({ colour := some .green, bold := true } : Style).paint r.around.coloured "✓" ++
        " " ++ ("Deleted " ++ target.text ++ " of " ++ project) ++ "\n" := by
  have hline := serverTask?_of_deletes hdeletes
  obtain ⟨hnone, -⟩ | ⟨asked, i, hasked, rfl⟩ := cases_of_ok hresult hran
  · nomatch hline.symm.trans hnone
  · obtain rfl := Option.some.inj (hline.symm.trans hasked.line)
    obtain ⟨c, op, a, url, hready, -, -, hsent, houtput⟩ := hasked.shown hran hsuccess
    obtain ⟨hasks, -⟩ := hasked.of_ready hready
    obtain ⟨project, hproject, rfl⟩ := Option.map_eq_some_iff.mp hasks
    refine ⟨project, _, hproject, hsent, ?_, ?_⟩
    · rw [← target.pairs_request]
      exact Operation.tells_request rfl url
    · rw [houtput, hasked.json, hjson, Operation.shown, Operation.exhibit, Display.done,
        Display.text_singleton rfl, target.text_request]
      cases target <;> rfl

/-- Whatever its line and its surroundings are, a run deletes nothing by mistake. -/
theorem deliberate_of_run (hresult : r.result = r.around.run r.arguments) : r.Deliberate where
  tells request h hpost := by
    obtain ⟨c, op, project, -, -, -, -, -, htold⟩ := told_of_sent hresult h hpost
    refine htold.imp ?_ ?_
    · rintro ⟨target, hdeletes, -⟩
      exact ⟨target, hdeletes⟩
    · rintro ⟨name, hrenames, -⟩
      exact ⟨name, hrenames⟩
  arrives honly base hbase request h hpost front hplace hfront :=
    deletes_of_arrives hresult honly hbase h hpost hplace hfront
  deletes target hdeletes request h := tells_of_deletes hresult hdeletes h
  renames name hrenames request h := tells_of_renames hresult hrenames h
  unclear hcommands hhelp hversion h := fails_of_unclear hresult hcommands hhelp hversion h
  shows target hdeletes hjson o hran hsuccess :=
    shows_of_deletes hresult hdeletes hjson hran hsuccess

end Ran

/-! ### Sessions -/

/-- A run in a session, with what somebody else has done to the files before it. -/
structure Visit extends Turn where
  meanwhile : FileTree → FileTree := id

namespace Visit

/-- The runs of a session, one after the other. Apart from what is done to them meanwhile, a run
finds the files as the run before it has left them. -/
def session (files : FileTree) : List Visit → List Ran
  | [] => []
  | visit :: visits =>
    let around := { visit.around with files := visit.meanwhile files }
    let ran : Ran :=
      { arguments := visit.arguments, around, result := around.run visit.arguments }
    ran :: session ran.files visits

/-- In a session of any runs, each with arguments, an environment, settings and responses of its
own, nothing is deleted by mistake. -/
theorem deliberate_session (files : FileTree) (visits : List Visit) :
    ∀ r ∈ session files visits, r.Deliberate := by
  induction visits generalizing files with
  | nil => exact List.forall_mem_nil _
  | cons visit visits ih =>
    refine List.forall_mem_cons.mpr ⟨?_, ih _⟩
    exact Ran.deliberate_of_run rfl

/-- A deletion without a confirmation, and then one with it. -/
theorem deliberate_session_confirmed :
    let around : Surroundings :=
      { server := some "http://host", settingsPath := some "config.toml", now := ⟨0, 0⟩,
        transport := fun _ => .answered ⟨⟨204⟩, none, []⟩ }
    let visits : List Visit :=
      [{ arguments := ["branch", "delete", "--pull-request", "7", "-p", "demo"], around },
        { arguments := ["-p", "other", "br", "delete", "-yp", "demo", "--pull-request=7"], around }]
    ∃ first second request, session {} visits = [first, second] ∧
      first ∈ session {} visits ∧ second ∈ session {} visits ∧
      first.sent = [] ∧ first.exitCode ≠ 0 ∧
      second.sent = [request] ∧ request.Tells [("project", "demo"), ("pullRequest", "7")] ∧
      second.result.toOption.map (·.output) = some "✓ Deleted pull request 7 of demo\n" := by
  intro around visits
  obtain ⟨first, second, hsession⟩ : ∃ first second, session {} visits = [first, second] :=
    ⟨_, _, rfl⟩
  have hfirst : first ∈ session {} visits := by rw [hsession]; exact List.mem_cons_self
  have hsecond : second ∈ session {} visits := by
    rw [hsession]
    exact List.mem_cons_of_mem _ List.mem_cons_self
  obtain ⟨rfl, hrest⟩ := List.cons.inj hsession
  obtain ⟨rfl, -⟩ := List.cons.inj hrest
  have hunclear := (deliberate_session {} visits _ hfirst).unclear (by decide +kernel)
    (by decide +kernel) (by decide +kernel) (.inl (by decide +kernel))
  generalize hran : (⟨_, _, _⟩ : Ran) = ran at hsecond
  have hdeletes : ran.Deletes (.pullRequest "7") := by
    rw [← hran]
    exact ⟨by decide +kernel, by decide +kernel, by decide +kernel⟩
  have hjson : ran.line.has jsonOption = false := by
    rw [← hran]
    decide +kernel
  have hproject : ran.project? = some "demo" := by
    rw [← hran]
    decide +kernel
  have hsucceeds : ran.result.toOption.map Outcome.exitCode = some 0 := by
    rw [← hran]
    decide +kernel
  obtain ⟨o, hresult, hcode⟩ := Option.map_eq_some_iff.mp hsucceeds
  obtain ⟨project, request, hfound, hsent, htells, houtput⟩ :=
    (deliberate_session {} visits _ hsecond).shows _ hdeletes hjson o
      (toOption_eq_some_iff.mp hresult) hcode
  obtain rfl := Option.some.inj (hfound.symm.trans hproject)
  have hcolour : ran.around.coloured = false := by rw [← hran]
  refine ⟨_, ran, request, by rw [← hran]; rfl, hfirst, hsecond, hunclear.1, hunclear.2, hsent,
    htells, ?_⟩
  rw [hresult, Option.map_some, houtput, hcolour]
  decide +kernel

/-- Behind a base that ends in a fragment, a renaming arrives where a deletion does. -/
theorem not_deliberate_below : ¬ ∀ (files : FileTree) (visits : List Visit),
    ∀ r ∈ session files visits, ∀ request ∈ r.sent, request.method = .post →
      ∀ front, request.url.place.text = front ++ "/api/project_branches/delete" →
        ∃ target, r.Deletes target := by
  intro h
  let around : Surroundings :=
    { server := some "http://host/api/project_branches/delete#f",
      settingsPath := some "config.toml", now := ⟨0, 0⟩,
      transport := fun _ => .answered ⟨⟨204⟩, none, []⟩ }
  let arguments := ["branch", "rename", "x", "-p", "demo"]
  let r : Ran := { arguments, around, result := around.run arguments }
  have hsent : r.sent.map (fun request => (request.method, request.url.place.text)) =
      [(.post, "http://host" ++ "/api/project_branches/delete")] := by decide +kernel
  obtain ⟨request, hrequest, htold⟩ : ∃ request ∈ r.sent, (request.method, request.url.place.text) =
      (.post, "http://host" ++ "/api/project_branches/delete") :=
    List.mem_map.mp (hsent ▸ List.mem_cons_self)
  obtain ⟨hpost, hplace⟩ := Prod.mk.inj htold
  obtain ⟨target, hcommands, -⟩ := h {} [{ arguments, around }] r List.mem_cons_self request hrequest
    hpost "http://host" hplace
  have hrename : r.commands = ["branch", "rename"] := by decide +kernel
  exact absurd (hrename.symm.trans hcommands) (by decide)

end Visit
end CodeQuality
