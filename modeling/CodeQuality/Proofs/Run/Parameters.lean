import CodeQuality.Proofs.CommandLine.Help
import CodeQuality.Proofs.CommandLine.Spelled
import CodeQuality.Proofs.Json.Reordered
import CodeQuality.Proofs.Run.Request
import CodeQuality.Proofs.Text.ByteOrder
import CodeQuality.Proofs.Url.Below

/-!
# Parameters of a request

A request for measures with what explains them has parameters of three kinds: the component and the
metrics, which nothing replaces, what the caller adds, where the last text counts, and what is asked
for unless the caller asks for something else. A server finds each name once, in the order of the
octets.

* `LastValue`, `Merged` — what a server has to find.
* `merged_metaPairs` — the parameters of a request.
* `ServerTask.carries_of_sent` — a request that is sent carries them.
* `Surroundings.carries_of_run` — from the line to the request.
-/

namespace CodeQuality

open CommandLine Invocation

/-- Is this the value of the last text that has one for the name? -/
def LastValue (params : List String) (name value : String) : Prop :=
  ∃ earlier text later, params = earlier ++ text :: later ∧ IsPair text (name, value) ∧
    ∀ other ∈ later, ∀ value', ¬IsPair other (name, value')

/-- Are these the parameters for a component and its metrics, to which the texts have been added? -/
structure Merged (component metrics : String) (params : List String)
    (ps : List (String × String)) : Prop where
  ascending : ps.Pairwise fun p q => Text.octets p.1.toList < Text.octets q.1.toList
  component : ∀ value, ("componentKey", value) ∈ ps ↔ value = component
  metrics : ∀ value, ("metricKeys", value) ∈ ps ↔ value = metrics
  fields : ∀ value, ("additionalFields", value) ∈ ps ↔
    LastValue params "additionalFields" value ∨
      (∀ text ∈ params, ∀ other, ¬IsPair text ("additionalFields", other)) ∧
        value = "metrics,periods"
  others : ∀ name value, name ∉ ["componentKey", "metricKeys", "additionalFields"] →
    ((name, value) ∈ ps ↔ LastValue params name value)

section Merge

variable {params : List String} {name value : String}

theorem eq_pairOf_iff {text : String} {p : String × String} (h : ∃ q, IsPair text q) :
    pairOf text = p ↔ IsPair text p := by
  obtain ⟨q, hq⟩ := h
  rw [pairOf_of_isPair hq]
  constructor
  · intro heq
    exact heq ▸ hq
  · intro hp
    exact (pairOf_of_isPair hq).symm.trans (pairOf_of_isPair hp)

/-- What is found under a name from the end on is the last value for it. -/
theorem member?_reverse_iff (hpairs : ∀ text ∈ params, ∃ p, IsPair text p) :
    Json.member? name (params.map pairOf).reverse = some value ↔ LastValue params name value := by
  constructor
  · intro h
    obtain ⟨p, hfind, rfl⟩ := Option.map_eq_some_iff.mp h
    obtain ⟨hname, behind, before, hreverse, hbehind⟩ := List.find?_eq_some_iff_append.mp hfind
    obtain rfl : p.1 = name := by simpa using hname
    have hparams : params.map pairOf = before.reverse ++ p :: behind.reverse := by
      rw [← List.reverse_reverse (params.map pairOf), hreverse]
      simp
    obtain ⟨earlier, rest, rfl, -, hrest⟩ := List.map_eq_append_iff.mp hparams
    obtain ⟨text, later, rfl, htext, hlater⟩ := List.map_eq_cons_iff.mp hrest
    have hmem : text ∈ earlier ++ text :: later := by simp
    refine ⟨earlier, text, later, rfl, (eq_pairOf_iff (hpairs text hmem)).mp htext, ?_⟩
    intro other hother value' hpair
    have hbehind' : pairOf other ∈ behind := by
      rw [← List.mem_reverse, ← hlater]
      exact List.mem_map_of_mem hother
    have hne := hbehind _ hbehind'
    rw [pairOf_of_isPair hpair] at hne
    simp at hne
  · intro h
    obtain ⟨earlier, text, later, rfl, hpair, hlast⟩ := h
    have hlater : Json.member? name (later.map pairOf).reverse = none := by
      apply Json.member?_eq_none_iff.mpr
      intro p hp
      obtain ⟨other, hother, rfl⟩ := List.mem_map.mp (List.mem_reverse.mp hp)
      obtain ⟨q, hq⟩ := hpairs other (List.mem_append_right _ (List.mem_cons_of_mem _ hother))
      rw [pairOf_of_isPair hq]
      intro heq
      exact hlast other hother q.2 (heq ▸ hq)
    rw [List.map_append, List.map_cons, List.reverse_append, List.reverse_cons, List.append_assoc,
      Json.member?_append, hlater, pairOf_of_isPair hpair, List.singleton_append, Json.member?_cons,
      if_pos rfl]
    rfl

/-- Nothing is found under a name that no text names. -/
theorem member?_reverse_eq_none_iff (hpairs : ∀ text ∈ params, ∃ p, IsPair text p) :
    Json.member? name (params.map pairOf).reverse = none ↔
      ∀ text ∈ params, ∀ other, ¬IsPair text (name, other) := by
  rw [Json.member?_eq_none_iff]
  constructor
  · intro h text htext other hpair
    have hmem : pairOf text ∈ (params.map pairOf).reverse :=
      List.mem_reverse.mpr (List.mem_map_of_mem htext)
    rw [pairOf_of_isPair hpair] at hmem
    exact h _ hmem rfl
  · intro h p hp hname
    obtain ⟨text, htext, rfl⟩ := List.mem_map.mp (List.mem_reverse.mp hp)
    obtain ⟨q, hq⟩ := hpairs text htext
    rw [pairOf_of_isPair hq] at hname
    exact h text htext q.2 (hname ▸ hq)

/-- What is asked for unless the caller asks for something else. -/
theorem member?_withDefaults (name : String) (additional : List (String × String)) :
    Json.member? name (ServerTask.withDefaults additional).reverse =
      if name = "additionalFields" then
        some ((Json.member? name additional.reverse).getD "metrics,periods")
      else Json.member? name additional.reverse := by
  unfold ServerTask.withDefaults
  by_cases hany : additional.any (·.1 = ServerTask.additionalFields) = true
  · rw [if_pos hany]
    split
    · next hname =>
      obtain ⟨p, hp, hfields⟩ := List.any_eq_true.mp hany
      have hsome : Json.member? name additional.reverse ≠ none := by
        intro hnone
        apply Json.member?_eq_none_iff.mp hnone p (List.mem_reverse.mpr hp)
        rw [hname]
        exact of_decide_eq_true hfields
      obtain ⟨value, hvalue⟩ := Option.ne_none_iff_exists'.mp hsome
      rw [hvalue]
      rfl
    · rfl
  · rw [if_neg hany, List.reverse_cons, Json.member?_append, Json.member?_cons]
    split
    · next hname =>
      subst hname
      have hnone : Json.member? ServerTask.additionalFields additional.reverse = none := by
        apply Json.member?_eq_none_iff.mpr
        intro p hp heq
        apply hany
        apply List.any_eq_true.mpr
        exact ⟨p, List.mem_reverse.mp hp, decide_eq_true heq⟩
      rw [hnone]
      rfl
    · next hname =>
      have hother : ¬name = "additionalFields" := fun heq => hname heq.symm
      rw [if_neg hother]
      exact Option.or_none

/-- The parameters of a request for measures with what explains them. -/
theorem merged_metaPairs (component : String) (metrics : List String)
    (hpairs : ∀ text ∈ params, ∃ p, IsPair text p) :
    Merged component (",".intercalate metrics) params
      (Client.metaPairs component metrics (ServerTask.withDefaults (params.map pairOf))) := by
  have hordered := Operation.metaPairs_ordered component metrics
    (ServerTask.withDefaults (params.map pairOf))
  have hmem (name value : String) :
      (name, value) ∈ Client.metaPairs component metrics
          (ServerTask.withDefaults (params.map pairOf)) ↔
        (if name = "componentKey" then some component
        else if name = "metricKeys" then some (",".intercalate metrics)
        else Json.member? name (ServerTask.withDefaults (params.map pairOf)).reverse) =
          some value := by
    rw [← Operation.member?_metaPairs, Json.member?_eq_some_iff hordered.nodup]
  constructor
  case ascending => exact hordered.imp fun hlt => Text.octets_lt_octets hlt
  case component =>
    intro value
    rw [hmem, if_pos rfl, Option.some_inj]
    exact eq_comm
  case metrics =>
    intro value
    rw [hmem, if_neg (by decide), if_pos rfl, Option.some_inj]
    exact eq_comm
  case fields =>
    intro value
    rw [hmem, if_neg (by decide), if_neg (by decide), member?_withDefaults, if_pos rfl,
      ← member?_reverse_iff hpairs, ← member?_reverse_eq_none_iff hpairs]
    cases Json.member? "additionalFields" (params.map pairOf).reverse with
    | none => simp [eq_comm]
    | some last => simp
  case others =>
    intro name value hname
    simp only [List.mem_cons, List.not_mem_nil, or_false, not_or] at hname
    obtain ⟨hcomponent, hmetrics, hfields⟩ := hname
    rw [hmem, if_neg hcomponent, if_neg hmetrics, member?_withDefaults, if_neg hfields,
      member?_reverse_iff hpairs]

end Merge

/-- Does the request carry these parameters, behind those only that the URL of the server brings in
itself? -/
structure Carries (base : Url) (component metrics : String) (params : List String)
    (request : Http.Request) : Prop where
  method : request.method = .get
  form : request.form = none
  query : ∃ query own ps, request.url.query = some query ∧ Form.decode query = own ++ ps ∧
    Merged component metrics params ps ∧ (base.isWeb = true → base.query = none → own = [])

/-! ### Requests -/

/-- The request for measures of a component to which texts have been added. -/
def metaOperation (component : String) (metrics params : List String) : Operation :=
  .measuresAndMeta component metrics (ServerTask.withDefaults (params.map pairOf))

variable {component : String} {metrics params : List String}

/-- Wherever it goes, the request carries what has been merged. -/
theorem carries_request {c : Client} {text : String} {url : Url}
    (hpairs : ∀ text ∈ params, ∃ p, IsPair text p) (hread : Url.read text = .ok c.baseUrl)
    (hurl : c.endpoint (metaOperation component metrics params).path = .ok url) :
    Carries c.baseUrl component (",".intercalate metrics) params
      ((metaOperation component metrics params).request url) := by
  obtain ⟨query, hquery, hdecode⟩ := Operation.decode_withPairs (Http.bare url)
    (metaOperation component metrics params).pairs_ne_nil
  refine ⟨rfl, rfl, query, _, _, hquery, hdecode, merged_metaPairs component metrics hpairs, ?_⟩
  intro hweb hnone
  obtain ⟨url', hurl', hkept⟩ := (metaOperation component metrics params).endpoint_of_web hread hweb
  obtain rfl := Except.ok.inj (hurl.symm.trans hurl')
  show Form.decode (url.query.getD []) = []
  rw [hkept hnone]
  rfl

namespace ServerTask

variable {s : Surroundings} {settings : Settings} {o : GlobalOptions}

theorem carries_of_sent (hload : s.loadSettings = .ok settings)
    (hpairs : ∀ text ∈ params, ∃ p, IsPair text p) {component? : Option String}
    {request : Http.Request}
    (hsent : request ∈
      (s.carryOut ((measuresAndMeta component? metrics (params.map pairOf)).run s o)).journal.sent) :
    ∃ url base component, (o.server.map normalizeServer).or settings.url = some url ∧
      Url.read url = .ok base ∧
      component?.or (o.project.or settings.defaultProject) = some component ∧
      Carries base component (",".intercalate metrics) params request := by
  rcases (measuresAndMeta component? metrics (params.map pairOf)).outcome_cases s o with
    ⟨e, hlacks, -⟩ | ⟨c, op, journal, hready, -⟩
  · rw [sent_of_lacks hlacks] at hsent
    nomatch hsent
  · rw [sent_of_ready hready] at hsent
    obtain ⟨hload', hurl, hread, hasks⟩ := hready
    obtain rfl := Except.ok.inj (hload.symm.trans hload')
    obtain ⟨component, hcomponent, rfl⟩ := Option.map_eq_some_iff.mp hasks
    refine ⟨_, _, component, hurl, hread, hcomponent, ?_⟩
    obtain ⟨target, htarget, rfl⟩ := Client.mem_sentTo hsent
    exact carries_request hpairs hread htarget

end ServerTask

/-! ### Runs -/

namespace Surroundings

variable {s : Surroundings} {settings : Settings} {arguments operands : List String}

/-- However the line is spelled, it is not carried out if one of its texts is no pair, and then
something is wrong with it, unless it asks for help. -/
theorem run_error_of_line
    (hwords : program.resolve (line arguments).words = (["measure", "meta"], operands))
    {text : String} (htext : text ∈ (line arguments).values paramOption)
    (hnone : ∀ p, ¬IsPair text p) :
    ∃ e, s.run arguments = .error e ∧ (e.exitCode = 0 →
      (line arguments).has helpOption = true ∨ (line arguments).has versionOption = true) := by
  cases hread : read s.server s.project arguments with
  | ok i =>
    obtain ⟨p, hp⟩ := isPair_of_read hread htext
    exact absurd hp (hnone p)
  | error e =>
    refine ⟨e, map_error_iff.mpr hread, ?_⟩
    intro he
    have hnames : (program.resolve (line arguments).words).1 = ["measure", "meta"] :=
      congrArg Prod.fst hwords
    have hleaf : (program.leaf (line arguments).words).commands.isEmpty = true :=
      leaf_of_names (P := fun d => d.commands.isEmpty = true) (by decide) hnames
    obtain hhelp | hversion | hcommands := help_of_read hread he
    · exact .inl hhelp
    · exact .inr hversion
    · exact absurd (List.isEmpty_iff.mp hleaf) hcommands

/-- However the line is spelled, what its run sends carries what stands on it. -/
theorem carries_of_line (hload : s.loadSettings = .ok settings)
    (hwords : program.resolve (line arguments).words = (["measure", "meta"], operands))
    {o : Outcome} (hrun : s.run arguments = .ok o) {request : Http.Request}
    (hsent : request ∈ o.journal.sent) :
    ∃ url base component,
      ((((line arguments).values serverOption).getLast?.or s.server).map normalizeServer).or
        settings.url = some url ∧
      Url.read url = .ok base ∧
      operands.head?.or ((((line arguments).values projectOption).getLast?.or s.project).or
        settings.defaultProject) = some component ∧
      Carries base component (",".intercalate ((line arguments).values metricOption))
        ((line arguments).values paramOption) request := by
  obtain ⟨i, hread, rfl⟩ := map_ok_iff.mp hrun
  have hpairs : ∀ text ∈ (line arguments).values paramOption, ∃ p, IsPair text p :=
    fun _ htext => isPair_of_read hread htext
  have htask := task_of_read hread
  rw [Line.serverTask?, hwords] at htask
  dsimp only [ServerTask.split] at htask
  rw [run_of_server htask] at hsent
  have hkeys := joinKeys_splitKeys ((line arguments).values metricOption)
  rw [← lastServer_of_read hread, ← lastProject_of_read hread]
  show ∃ url base component, _ ∧ _ ∧ _ ∧ Carries base component (joinKeys _) _ request
  rw [← hkeys]
  exact ServerTask.carries_of_sent hload hpairs hsent

/-- What the task for a component sends to a server of the web. -/
theorem sent_of_task (hload : s.loadSettings = .ok settings) (o : GlobalOptions)
    (component : String) (metrics : List String) {url : String} {base : Url}
    (hurl : (o.server.map normalizeServer).or settings.url = some url)
    (hread : Url.read url = .ok base) (hweb : base.isWeb = true)
    (hpairs : ∀ text ∈ params, ∃ p, IsPair text p) :
    ∃ request, Carries base component (",".intercalate metrics) params request ∧
      (s.carryOut
          ((ServerTask.measuresAndMeta component metrics (params.map pairOf)).run s o)).journal.sent =
        if (s.transport request).isSeen then [request] else [] := by
  have hasks : (ServerTask.measuresAndMeta component metrics (params.map pairOf)).asks
      (o.project.or settings.defaultProject) = some (metaOperation component metrics params) := rfl
  obtain ⟨c, rfl, hready⟩ := ServerTask.exists_ready hload hurl hread hasks
  obtain ⟨target, htarget, -⟩ :=
    (metaOperation component metrics params).endpoint_of_web hread hweb
  refine ⟨_, carries_request hpairs hread htarget, ?_⟩
  rw [ServerTask.sent_of_ready hready, Client.sentTo_of_ok htarget, ← hready.transport_eq]
  rfl

/-- A line that is spelled out is carried out if it has a metric and all its texts are pairs. -/
theorem sent_of_metaLine (hload : s.loadSettings = .ok settings) (component : String)
    (hmetrics : metrics ≠ []) (hpairs : ∀ text ∈ params, ∃ p, IsPair text p) :
    ∃ o, s.run (metaLine component metrics params) = .ok o ∧
      ∀ url base, (s.server.map normalizeServer).or settings.url = some url →
        Url.read url = .ok base → base.isWeb = true →
        ∃ request, Carries base component (",".intercalate metrics) params request ∧
          o.journal.sent = if (s.transport request).isSeen then [request] else [] := by
  rcases read_metaLine s.server s.project component metrics params with
    ⟨-, hline⟩ | ⟨text, htext, reason, hfault, -⟩
  · rw [if_neg (by simpa using hmetrics)] at hline
    refine ⟨_, map_ok_iff.mpr ⟨_, hline, rfl⟩, ?_⟩
    intro url base hurl hread hweb
    obtain ⟨request, hcarries, hsent⟩ :=
      sent_of_task hload { server := s.server, project := s.project } component
        (splitKeys metrics) hurl hread hweb hpairs
    have hkeys : ",".intercalate (splitKeys metrics) = ",".intercalate metrics :=
      joinKeys_splitKeys metrics
    rw [hkeys] at hcarries
    exact ⟨request, hcarries, hsent⟩
  · rw [pairFault?_eq_none_iff.mpr (hpairs text htext)] at hfault
    nomatch hfault

/-- A line that is spelled out is not carried out if it has no metric, or if one of its texts is no
pair. -/
theorem run_metaLine_error (s : Surroundings) (component : String) (metrics params : List String) :
    ((∃ text ∈ params, ∀ p, ¬IsPair text p) → ∃ text ∈ params, (∀ p, ¬IsPair text p) ∧
      ∃ reason, s.run (metaLine component metrics params) =
        .error (.badPair paramOption text reason)) ∧
    ((∀ text ∈ params, ∃ p, IsPair text p) → metrics = [] →
      s.run (metaLine component metrics params) = .error .missingRequired) := by
  rcases read_metaLine s.server s.project component metrics params with
    ⟨hpairs, hline⟩ | ⟨text, htext, reason, hfault, hline⟩
  case inl =>
    constructor
    · intro h
      obtain ⟨text, htext, hnone⟩ := h
      obtain ⟨p, hp⟩ := hpairs text htext
      exact absurd hp (hnone p)
    · intro _ hmetrics
      rw [hmetrics] at hline ⊢
      exact map_error_iff.mpr hline
  case inr =>
    have hnone : ∀ p, ¬IsPair text p := by
      intro p hp
      rw [pairFault?_eq_none_iff.mpr ⟨p, hp⟩] at hfault
      nomatch hfault
    constructor
    · intro _
      exact ⟨text, htext, hnone, reason, map_error_iff.mpr hline⟩
    · intro hpairs
      obtain ⟨p, hp⟩ := hpairs text htext
      exact absurd hp (hnone p)

/-- Texts are added to a request for measures only if all of them are pairs; one that is none is a
fault, and then nothing is sent. The request has the parameters that have been merged, however the
line is spelled, and a line that is spelled out sends it. -/
theorem carries_of_run (hload : s.loadSettings = .ok settings) :
    (∀ arguments operands,
      program.resolve (line arguments).words = (["measure", "meta"], operands) →
      let params := (line arguments).values paramOption
      ((∃ text ∈ params, ∀ p, ¬IsPair text p) → ∃ e, s.run arguments = .error e ∧
        (e.exitCode = 0 → (line arguments).has helpOption = true ∨
          (line arguments).has versionOption = true)) ∧
      ∀ o, s.run arguments = .ok o → ∀ request ∈ o.journal.sent, ∃ url base component,
        ((((line arguments).values serverOption).getLast?.or s.server).map normalizeServer).or
          settings.url = some url ∧
        Url.read url = .ok base ∧
        operands.head?.or ((((line arguments).values projectOption).getLast?.or s.project).or
          settings.defaultProject) = some component ∧
        Carries base component (",".intercalate ((line arguments).values metricOption)) params
          request) ∧
    ∀ component metrics params,
      let arguments := metaLine component metrics params
      ((∃ text ∈ params, ∀ p, ¬IsPair text p) → ∃ text ∈ params, (∀ p, ¬IsPair text p) ∧
        ∃ reason, s.run arguments = .error (.badPair paramOption text reason)) ∧
      ((∀ text ∈ params, ∃ p, IsPair text p) →
        if metrics = [] then s.run arguments = .error .missingRequired
        else ∃ o, s.run arguments = .ok o ∧
          ∀ url base, (s.server.map normalizeServer).or settings.url = some url →
            Url.read url = .ok base → base.isWeb = true →
            ∃ request, Carries base component (",".intercalate metrics) params request ∧
              o.journal.sent = if (s.transport request).isSeen then [request] else []) := by
  constructor
  · intro arguments operands hwords params
    constructor
    · intro h
      obtain ⟨text, htext, hnone⟩ := h
      exact run_error_of_line hwords htext hnone
    · intro o hrun request hsent
      exact carries_of_line hload hwords hrun hsent
  · intro component metrics params arguments
    obtain ⟨hfault, hmissing⟩ := run_metaLine_error s component metrics params
    refine ⟨hfault, ?_⟩
    intro hpairs
    split
    · next hmetrics => exact hmissing hpairs hmetrics
    · next hmetrics => exact sent_of_metaLine hload component hmetrics hpairs

/-- A component that looks like an option, texts that name the component, a value with separators in
it, and a name that comes twice. -/
theorem carries_of_run_separators :
    let s : Surroundings :=
      { server := some "host", settingsPath := some "config.toml", now := ⟨0, 0⟩,
        transport := fun _ => .unanswered }
    let params := ["b=1", "componentKey=other", "additionalFields=", "b=x=y&z", "é=2"]
    ∃ o base request, s.run (metaLine "-c" ["ncloc,bugs", "coverage"] params) = .ok o ∧
      Url.read "https://host" = .ok base ∧
      Carries base "-c" "ncloc,bugs,coverage" params request ∧ o.journal.sent = [request] := by
  intro s params
  have hload : s.loadSettings = .ok {} := rfl
  have hserver : (s.server.map normalizeServer).or none = some "https://host" := by decide +kernel
  have hbase : Url.read "https://host" = .ok
      { scheme := "https".toList, host := some (.domain "host".toList),
        path := .segments [[]] } := by
    apply toOption_eq_some_iff.mp
    decide +kernel
  have hpairs : ∀ text ∈ params, ∃ p, IsPair text p := by
    intro text htext
    apply pairFault?_eq_none_iff.mp
    revert text
    decide +kernel
  have hmetrics : ¬["ncloc,bugs", "coverage"] = [] := List.cons_ne_nil _ _
  obtain ⟨-, hspelled⟩ := carries_of_run hload
  have hruns := (hspelled "-c" ["ncloc,bugs", "coverage"] params).2 hpairs
  rw [if_neg hmetrics] at hruns
  obtain ⟨o, hrun, hsent⟩ := hruns
  obtain ⟨request, hcarries, hsent⟩ := hsent _ _ hserver hbase (by decide)
  exact ⟨o, _, request, hrun, hbase, hcarries, hsent⟩

end Surroundings

end CodeQuality
