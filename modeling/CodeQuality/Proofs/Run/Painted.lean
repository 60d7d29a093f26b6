import CodeQuality.Proofs.Report.Painted
import CodeQuality.Proofs.Run.Echo

/-!
# Runs in colour

A run that shows an answer in tables paints what stands out in it: the known states of quality
gates, and how many bugs and vulnerabilities there are. What it shows says the same as without
colours, but the escape sequences shift the frames of the tables. So what is left without them is
what the run shows without colours exactly if nothing stands out.

* `Operation.shownTexts`, `Operation.standsOut` — the texts of an answer, and what stands out in it.
* `Ran.decorates_of_run` — what a run shows with colours and without.
-/

namespace CodeQuality

open CommandLine Invocation
open Style (Plain unpaint)
open Report (Decorates)

namespace Operation

/-- The texts in what an operation gives that are shown. -/
def shownTexts : (op : Operation) → op.Answer → List String
  | branches _ => List.flatMap BranchLike.shownTexts
  | deleteBranch _ | renameBranch _ _ => fun _ => []
  | measures _ => List.flatMap Measure.shownTexts
  | measuresAndMeta _ _ _ => MeasuresAndMeta.shownTexts
  | projectMeasures _ _ => List.flatMap ProjectMeasure.shownTexts

/-- Does something stand out in what an operation gives? -/
def standsOut : (op : Operation) → op.Answer → Bool
  | branches _ => fun entries => entries.any BranchLike.standsOut
  | deleteBranch _ | renameBranch _ _ => fun _ => false
  | measures _ => fun ms => ms.any Measure.standsOut
  | measuresAndMeta _ _ _ => MeasuresAndMeta.standsOut
  | projectMeasures _ _ => fun ms => ms.any ProjectMeasure.standsOut

/-- What is shown of what an operation that asks gives. -/
theorem decorates_shown {op : Operation} (hget : op.method = .get) {a : op.Answer}
    (h : ∀ s ∈ op.shownTexts a, Plain s) (now : Instant) :
    Decorates (op.shown ⟨false, true, now⟩ a) (op.shown ⟨false, false, now⟩ a)
      (op.standsOut a) := by
  cases op with
  | branches project =>
    simp only [shown, exhibit, Display.branches, Display.text_singleton]
    exact Report.decorates_branches (List.forall_mem_flatMap.mp h) now
  | deleteBranch | renameBranch => cases hget
  | measures r =>
    simp only [shown, exhibit, Display.measures, Display.text_singleton]
    exact Report.decorates_measures (List.forall_mem_flatMap.mp h)
  | measuresAndMeta component metrics additional => exact Report.decorates_measuresAndMeta h
  | projectMeasures projects metrics =>
    simp only [shown, exhibit, Display.projectMeasures, Display.text_singleton]
    exact Report.decorates_projectMeasures (List.forall_mem_flatMap.mp h)

end Operation

namespace Ran

/-- The run with colours or without, if all else is the same. -/
def inColours (r : Ran) (coloured : Bool) : Except UsageError Outcome :=
  ({ r.around with coloured } : Surroundings).run r.arguments

variable {r : Ran} {o : Outcome}

/-- A run that shows an answer in tables shows the same answer with colours and without. -/
theorem shown_of_run (hresult : r.result = r.around.run r.arguments) (hran : r.result = .ok o)
    (hsuccess : o.exitCode = 0) (hcommands : r.commands ∈ askingCommands)
    (hjson : r.line.has jsonOption = false) :
    ∃ (c : Client) (op : Operation) (a : op.Answer),
      r.Calls c op ∧ op.method = .get ∧ (op.perform c).outcome.1 = .ok a ∧
        ∀ coloured, ∃ o, r.inColours coloured = .ok o ∧ o.exitCode = 0 ∧
          o.output = op.shown ⟨false, coloured, r.around.now⟩ a := by
  obtain ⟨asked, i, hasked, rfl⟩ := asks_of_asking hresult hran hcommands
  obtain ⟨c, op, a, url, hready, ha, -, -, -⟩ := hasked.shown hran hsuccess
  obtain ⟨hasks, hbase, -, htransport⟩ := hasked.of_ready hready
  have hget := method_of_asking hcommands hasked.line hasks
  have hperform : (op.perform c).outcome.1 = .ok a := (op.outcome_perform c).trans ha
  refine ⟨c, op, a, ⟨hbase, htransport, asked, hasked.line, hasks⟩, hget, hperform, ?_⟩
  intro coloured
  have hclient : { c with transport := r.around.transport } = c := by rw [← htransport]
  have hagain : ∃ o, ({ r.around with coloured } : Surroundings).run r.arguments = .ok o ∧
      o.exitCode = 0 ∧ o.output = op.shown ⟨i.options.json, coloured, r.around.now⟩ a :=
    hasked.run_of_result hready rfl rfl rfl (hclient.symm ▸ ha)
  rwa [hasked.json, hjson] at hagain

/-- A run that shows an answer in tables succeeds with and without colours. What the two show says
the same, but removing the escape sequences from the one gives the other exactly if nothing stands
out. -/
theorem decorates_of_run (hresult : r.result = r.around.run r.arguments) (hran : r.result = .ok o)
    (hsuccess : o.exitCode = 0) (hcommands : r.commands ∈ askingCommands)
    (hjson : r.line.has jsonOption = false) :
    ∃ (c : Client) (op : Operation) (a : op.Answer) (painted plain : Outcome),
      r.Calls c op ∧ (op.perform c).outcome.1 = .ok a ∧
        r.inColours true = .ok painted ∧ painted.exitCode = 0 ∧
        r.inColours false = .ok plain ∧ plain.exitCode = 0 ∧
        ((∀ s ∈ op.shownTexts a, Plain s) →
          Decorates painted.output plain.output (op.standsOut a)) := by
  obtain ⟨c, op, a, hcalls, hget, hperform, hshown⟩ :=
    shown_of_run hresult hran hsuccess hcommands hjson
  obtain ⟨painted, hpainted, hpaintedExit, hpaintedOutput⟩ := hshown true
  obtain ⟨plain, hplain, hplainExit, hplainOutput⟩ := hshown false
  refine ⟨c, op, a, painted, plain, hcalls, hperform, hpainted, hpaintedExit, hplain, hplainExit,
    fun htexts => ?_⟩
  rw [hpaintedOutput, hplainOutput]
  exact Operation.decorates_shown hget htexts r.around.now

/-! ### A quality gate in colour -/

/-- The body of an answer that tells the state of a quality gate. -/
def gateBody : String :=
  "\x7b\"component\":\x7b\"measures\":[\x7b\"metric\":\"alert_status\",\"value\":\"OK\"\x7d]\x7d\x7d"

/-- A run that asks for the state of the quality gate of a project. -/
def gateRun : Ran :=
  let around : Surroundings :=
    { server := some "http://host", settingsPath := some "config.toml", now := ⟨0, 0⟩,
      transport := fun _ => .answered ⟨⟨200⟩, none, Text.octets gateBody.toList⟩ }
  let arguments := ["-p", "demo", "measure", "get", "-m", "alert_status"]
  { arguments, around, result := around.run arguments }

theorem gateRun_ok : ∃ o, gateRun.result = .ok o ∧ o.exitCode = 0 := by
  have hsuccess : gateRun.result.toOption.map (·.exitCode) = some 0 := by decide +kernel
  obtain ⟨o, hran, hexit⟩ := Option.map_eq_some_iff.mp hsuccess
  exact ⟨o, toOption_eq_some_iff.mp hran, hexit⟩

theorem gateRun_commands : gateRun.commands ∈ askingCommands := by decide +kernel

theorem gateRun_json : gateRun.line.has jsonOption = false := by decide +kernel

/-- The state of the gate stands out in the answer. -/
theorem gateRun_standsOut {c : Client} {op : Operation} {a : op.Answer} (h : gateRun.Calls c op)
    (hperform : (op.perform c).outcome.1 = .ok a) :
    (∀ s ∈ op.shownTexts a, Plain s) ∧ op.standsOut a = true := by
  obtain ⟨hbase, htransport, asked, hasked, hasks⟩ := h
  obtain rfl : asked = .measures none ["alert_status"] none none :=
    Option.some.inj (hasked.symm.trans (by decide +kernel))
  have hproject : gateRun.project? = some "demo" := by decide +kernel
  rw [hproject] at hasks
  cases hasks
  have hbaseUrl : gateRun.base? = some
      { scheme := "http".toList, host := some (.domain "host".toList),
        path := .segments [[]] } := by decide +kernel
  have hurl : c.endpoint Client.componentPath = .ok
      { scheme := "http".toList, host := some (.domain "host".toList),
        path := .segments ["api".toList, "measures".toList, "component".toList] } := by
    unfold Client.endpoint
    rw [← Option.some.inj (hbaseUrl.symm.trans hbase)]
    exact toOption_eq_some_iff.mp (by decide +kernel)
  have htext : Http.Response.text ⟨⟨200⟩, none, Text.octets gateBody.toList⟩ = gateBody :=
    Http.Response.text_of_spells ⟨rfl, rfl⟩ (by decide +kernel)
  let shown : List Measure := [{ metric := "alert_status", value := some "OK" }]
  have hdecode : (Client.componentMeasuresSchema.read gateBody).map
      (fun answer => List.map Measure.ofVal answer.1.1) = .ok shown :=
    toOption_eq_some_iff.mp (by decide +kernel)
  have hgiven : (Operation.measures { component := "demo", metrics := ["alert_status"] }).result c =
      .ok shown := by
    refine Client.answer_of_success hurl (by rw [htransport]; rfl) rfl ?_
    rw [htext]
    exact hdecode
  obtain rfl : a = shown :=
    Except.ok.inj (hperform.symm.trans ((Operation.outcome_perform c _).trans hgiven))
  decide +kernel

/-- With colours and without, the run succeeds and says the same. -/
theorem decorates_of_run_gate :
    (∃ o, gateRun.result = .ok o ∧ o.exitCode = 0) ∧ gateRun.commands ∈ askingCommands ∧
      gateRun.line.has jsonOption = false ∧
        ∃ painted plain, gateRun.inColours true = .ok painted ∧
          gateRun.inColours false = .ok plain ∧ Decorates painted.output plain.output true := by
  obtain ⟨o, hran, hexit⟩ := gateRun_ok
  refine ⟨gateRun_ok, gateRun_commands, gateRun_json, ?_⟩
  obtain ⟨c, op, a, painted, plain, hcalls, hperform, hpainted, -, hplain, -, hdecorates⟩ :=
    decorates_of_run rfl hran hexit gateRun_commands gateRun_json
  obtain ⟨htexts, hstands⟩ := gateRun_standsOut hcalls hperform
  exact ⟨painted, plain, hpainted, hplain, hstands ▸ hdecorates htexts⟩

/-- The escape sequences shift the frame of the table: removing them does not give what the same run
shows without colours. -/
theorem not_unpaint_of_run :
    Plain gateBody ∧ ∃ painted plain, gateRun.inColours true = .ok painted ∧
      gateRun.inColours false = .ok plain ∧ painted.exitCode = 0 ∧ plain.exitCode = 0 ∧
        unpaint painted.output ≠ plain.output := by
  obtain ⟨o, hran, hexit⟩ := gateRun_ok
  obtain ⟨c, op, a, hcalls, hget, hperform, hshown⟩ :=
    shown_of_run rfl hran hexit gateRun_commands gateRun_json
  obtain ⟨htexts, hstands⟩ := gateRun_standsOut hcalls hperform
  obtain ⟨painted, hpainted, hpaintedExit, hpaintedOutput⟩ := hshown true
  obtain ⟨plain, hplain, hplainExit, hplainOutput⟩ := hshown false
  refine ⟨by decide, painted, plain, hpainted, hplain, hpaintedExit, hplainExit, ?_⟩
  intro heq
  rw [hpaintedOutput, hplainOutput] at heq
  have hplain := (Operation.decorates_shown hget htexts gateRun.around.now).unpaint_eq_iff.mp heq
  exact Bool.false_ne_true (hplain.symm.trans hstands)

end Ran
end CodeQuality
