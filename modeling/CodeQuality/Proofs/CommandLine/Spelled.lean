import CodeQuality.Proofs.CommandLine.Pairs

/-!
# Options that are spelled out

Where options are read, one that may be given again and has its value behind an equals sign is
settled at once, whatever its value looks like. So a list of such options is read one by one, until
one of them has a value that is not allowed.

* `OptionSpec.spelled` — an option with its value.
* `Level.argument_spelled`, `State.fold_spelled` — one such option, and many of them.
* `Invocation.read_metaLine` — a line that asks for measures with what explains them.
-/

namespace CodeQuality
namespace CommandLine

variable {g : Globals} {l : Level} {o : OptionSpec}

/-- An option with its value behind an equals sign. -/
def OptionSpec.spelled (o : OptionSpec) (text : String) : String :=
  "--" ++ (o.long ++ "=" ++ text)

theorem shape_spelled (o : OptionSpec) (text : String) :
    Shape.of (o.spelled text) = .long (o.long ++ "=" ++ text) := by
  have hchars : (o.spelled text).toList = '-' :: '-' :: (o.long ++ "=" ++ text).toList := by
    simp [OptionSpec.spelled]
  have hne : (o.long ++ "=" ++ text).toList ≠ [] := by
    simp
  obtain ⟨c, cs, hbody⟩ := List.exists_cons_of_ne_nil hne
  rw [Shape.of, hchars, hbody, Shape.ofChars, ← hbody, String.ofList_toList]
  exact nofun

/-- Is it an option among these that may be given again and does not ask for help? -/
structure OptionSpec.Repeats (options : List OptionSpec) (o : OptionSpec) : Prop where
  known : options.find? (·.long = o.long) = some o
  repeatable : o.isRepeatable = true
  first : '=' ∉ o.long.toList
  noHelp : o.long ≠ "help"
  noVersion : o.long ≠ "version"

theorem takesValue_of_isRepeatable (h : o.isRepeatable = true) : o.takesValue = true := by
  unfold OptionSpec.isRepeatable at h
  unfold OptionSpec.takesValue
  cases hkind : o.kind with
  | switch =>
    rw [hkind] at h
    nomatch h
  | single | list | pair => simp

namespace Level

/-- Are options read, and has none come that is not settled? -/
structure Calm (l : Level) : Prop where
  pending : l.pending = none
  awaiting : l.awaiting = false
  onlyOperands : l.onlyOperands = false

/-- An option that is spelled out is settled if its value is allowed. -/
theorem argument_spelled (hcalm : l.Calm) (ho : o.Repeats (l.options g)) (text : String) :
    l.argument g (o.spelled text) =
      (valuesOf o text).map fun values => { l with given := l.given ++ [(o, values)] } := by
  obtain ⟨hpending, hawaiting, honly⟩ := hcalm
  have htakes := takesValue_of_isRepeatable ho.repeatable
  have hlong : l.argument g (o.spelled text) = l.long g (o.long ++ "=" ++ text) := by
    rw [argument_eq, honly, shape_spelled]
    rfl
  have htaken : l.long g (o.long ++ "=" ++ text) = l.takeWith o text := by
    rw [Level.long, cutAtEquals_append ho.first]
    dsimp only
    rw [ho.known]
    dsimp only
    rw [if_pos htakes]
  have hsettle : l.settle o (some text) = (valuesOf o text).map fun values =>
      { l with given := l.given ++ [(o, values)] } := by
    rw [settle, if_neg ho.noHelp, if_neg ho.noVersion, ho.repeatable]
    rfl
  have hsettled : l.settlePending = .ok l := by
    rw [settlePending, hpending]
  rw [hlong, htaken, takeWith, hsettled]
  show (l.settle o (some text) >>= fun l' => .ok { l' with awaiting := false }) = _
  rw [hsettle]
  cases valuesOf o text with
  | error e => rfl
  | ok values =>
    rw [← hawaiting]
    rfl

/-- Closing a level with nothing left to be settled finds out whether something is missing. -/
theorem close_eq {inner : Bool} (hpending : l.pending = none)
    (hcommands : l.spec.commands = [] ∨ inner = true) (hexclusive : l.spec.exclusive = []) :
    l.close g inner = if l.isComplete then .ok l else .error .missingRequired := by
  have hsettled : l.settlePending = .ok l := by
    rw [settlePending, hpending]
  have hinner : (!l.spec.commands.isEmpty && !inner) = false := by
    rcases hcommands with h | rfl
    · rw [h]
      rfl
    · simp
  have hclash : l.clash? = none := by
    have hexcludes (o : OptionSpec) : l.excludes o = fun _ => false := by
      funext other
      rw [excludes, hexclusive]
      rfl
    simp [clash?, hexcludes]
  rw [close, hsettled]
  dsimp only [bind, Except.bind]
  rw [hinner, hclash]
  rfl

end Level

namespace State

/-- Inside a command with no others inside, each argument belongs to this command. -/
theorem step_of_leaf (outer : List Level) (h : l.spec.commands = []) (text : String) :
    (reading outer l).step g text = (l.argument g text).map (reading outer) := by
  unfold step
  dsimp only
  rw [CommandSpec.find?_of_nil h, h]
  simp

/-- Options that are spelled out are settled one after the other. -/
theorem fold_spelled (outer : List Level) (hleaf : l.spec.commands = []) (hcalm : l.Calm)
    (ho : o.Repeats (l.options g)) (texts : List String) :
    (texts.map o.spelled).foldlM (fun s a => s.step g a) (reading outer l) =
      (texts.mapM (Level.valuesOf o)).map fun values =>
        reading outer { l with given := l.given ++ values.map (o, ·) } := by
  induction texts generalizing l with
  | nil =>
    show Except.ok (reading outer l) = .ok (reading outer { l with given := l.given ++ [] })
    rw [List.append_nil]
  | cons text texts ih =>
    rw [List.map_cons, List.foldlM_cons, step_of_leaf outer hleaf, Level.argument_spelled hcalm ho,
      List.mapM_cons]
    cases Level.valuesOf o text with
    | error e => rfl
    | ok values =>
      have hnext := @ih { l with given := l.given ++ [(o, values)] } hleaf
        ⟨hcalm.pending, hcalm.awaiting, hcalm.onlyOperands⟩ ho
      refine hnext.trans ?_
      cases texts.mapM (Level.valuesOf o) with
      | error e => rfl
      | ok rest =>
        show Except.ok _ = Except.ok _
        simp

end State

end CommandLine

/-! ### Measures with what explains them -/

namespace Invocation

open CommandLine

variable {server project : Option String} {component : String} {metrics params : List String}

/-- The command for measures with what explains them. -/
def metaCommand : CommandSpec :=
  .mk "meta" [] [metricOption, paramOption] [("COMPONENT", false)] [["metric"]] [] []

/-- The line that asks for measures of a component with what explains them. -/
def metaLine (component : String) (metrics params : List String) : List String :=
  ["measure", "meta"] ++ metrics.map metricOption.spelled ++ params.map paramOption.spelled ++
    ["--", component]

/-- The level of this command with what has been settled. -/
def metaLevel (given : List (OptionSpec × List String)) : Level :=
  { spec := metaCommand, path := [program.name, "measure", "meta"], given }

/-- The levels around it, from the inside out. -/
def aroundMeta : List Level :=
  [{ spec := measureCommand, path := [program.name, "measure"] },
    { spec := program, path := [program.name] }]

theorem repeats_of_mem (server project : Option String) {o : OptionSpec}
    (ho : o ∈ metaCommand.options) (given : List (OptionSpec × List String)) :
    o.Repeats ((metaLevel given).options (globals server project)) := by
  have hall : ∀ o ∈ metaCommand.options,
      (metaCommand.options ++ globalOptions ++ [helpOption, versionOption]).find?
        (·.long = o.long) = some o ∧ o.isRepeatable = true ∧ '=' ∉ o.long.toList ∧
          o.long ≠ "help" ∧ o.long ≠ "version" := by
    decide
  obtain ⟨hknown, hrepeatable, hfirst, hhelp, hversion⟩ := hall o ho
  exact ⟨hknown, hrepeatable, hfirst, hhelp, hversion⟩

/-- All keys of metrics are allowed. -/
theorem mapM_metrics (metrics : List String) :
    metrics.mapM (Level.valuesOf metricOption) = .ok (metrics.map metricOption.textsOf) :=
  mapM_ok_of_forall fun _ _ => rfl

theorem valuesOf_of_pair {text : String} (h : Level.pairFault? text = none) :
    Level.valuesOf paramOption text = .ok [text] := by
  unfold Level.valuesOf
  dsimp only [paramOption]
  rw [h]

theorem valuesOf_of_fault {text reason : String} (h : Level.pairFault? text = some reason) :
    Level.valuesOf paramOption text = .error (.badPair paramOption text reason) := by
  unfold Level.valuesOf
  dsimp only [paramOption]
  rw [h]

/-- Of texts that have to be pairs all are, or one is at fault. -/
theorem mapM_params (params : List String) :
    (∀ text ∈ params, ∃ p, IsPair text p) ∧
        params.mapM (Level.valuesOf paramOption) = .ok (params.map ([·])) ∨
      ∃ text ∈ params, ∃ reason, Level.pairFault? text = some reason ∧
        params.mapM (Level.valuesOf paramOption) = .error (.badPair paramOption text reason) := by
  induction params with
  | nil => exact .inl ⟨List.forall_mem_nil _, rfl⟩
  | cons text params ih =>
    rw [List.mapM_cons]
    cases hfault : Level.pairFault? text with
    | some reason =>
      rw [valuesOf_of_fault hfault]
      exact .inr ⟨text, List.mem_cons_self, reason, hfault, rfl⟩
    | none =>
      have hpair := pairFault?_eq_none_iff.mp hfault
      rw [valuesOf_of_pair hfault]
      rcases ih with ⟨hpairs, hrest⟩ | ⟨other, hmem, reason, hother, hrest⟩
      · rw [hrest]
        exact .inl ⟨List.forall_mem_cons.mpr ⟨hpair, hpairs⟩, rfl⟩
      · rw [hrest]
        exact .inr ⟨other, List.mem_cons_of_mem _ hmem, reason, hother, rfl⟩

/-- Options of this command that are spelled out are settled one after the other. -/
theorem fold_options {o : OptionSpec} (ho : o ∈ metaCommand.options)
    (given : List (OptionSpec × List String)) (texts : List String) :
    (texts.map o.spelled).foldlM (fun s a => s.step (globals server project) a)
        (State.reading aroundMeta (metaLevel given)) =
      (texts.mapM (Level.valuesOf o)).map fun values =>
        State.reading aroundMeta (metaLevel (given ++ values.map (o, ·))) :=
  State.fold_spelled aroundMeta rfl ⟨rfl, rfl, rfl⟩ (repeats_of_mem server project ho given) texts

/-- Behind two hyphens stands the component, whatever it looks like. -/
theorem fold_component (component : String) (given : List (OptionSpec × List String)) :
    ["--", component].foldlM (fun s a => s.step (globals server project) a)
        (State.reading aroundMeta (metaLevel given)) =
      .ok (State.reading aroundMeta
        { metaLevel given with operands := [component], onlyOperands := true }) := by
  have hhyphens : (metaLevel given).argument (globals server project) "--" =
      .ok { metaLevel given with onlyOperands := true } := rfl
  have hcomponent : Level.argument (globals server project)
      { metaLevel given with onlyOperands := true } component =
        .ok { metaLevel given with operands := [component], onlyOperands := true } := rfl
  rw [List.foldlM_cons, State.step_of_leaf _ rfl, hhyphens]
  apply ok_bind_iff.mpr
  refine ⟨State.reading aroundMeta { metaLevel given with onlyOperands := true }, rfl, ?_⟩
  rw [List.foldlM_cons, State.step_of_leaf _ rfl, hcomponent]
  rfl

/-- What is settled when the whole line has been read. -/
def metaGiven (metrics : List String) (values : List (List String)) :
    List (OptionSpec × List String) :=
  metrics.map (fun text => (metricOption, metricOption.textsOf text)) ++ values.map (paramOption, ·)

/-- The level that is left when the line has been read. -/
def metaEnd (component : String) (metrics : List String) (values : List (List String)) : Level :=
  { metaLevel (metaGiven metrics values) with operands := [component], onlyOperands := true }

/-- The whole line is read unless one of its texts is at fault. -/
theorem fold_metaLine (server project : Option String) (component : String)
    (metrics params : List String) :
    (metaLine component metrics params).foldlM (fun s a => s.step (globals server project) a)
        (State.reading [] { spec := program, path := [program.name] }) =
      (params.mapM (Level.valuesOf paramOption)).map fun values =>
        State.reading aroundMeta (metaEnd component metrics values) := by
  have hcommands : ["measure", "meta"].foldlM (fun s a => s.step (globals server project) a)
      (State.reading [] { spec := program, path := [program.name] }) =
        .ok (State.reading aroundMeta (metaLevel [])) := rfl
  have hmetric : metricOption ∈ metaCommand.options := List.mem_cons_self
  have hparam : paramOption ∈ metaCommand.options := List.mem_cons_of_mem _ List.mem_cons_self
  rw [metaLine, List.foldlM_append, List.foldlM_append, List.foldlM_append, hcommands]
  dsimp only [bind, Except.bind]
  rw [fold_options hmetric, mapM_metrics]
  dsimp only [Except.map]
  rw [fold_options hparam, List.map_map, List.nil_append]
  cases params.mapM (Level.valuesOf paramOption) with
  | error e => rfl
  | ok values => exact fold_component component _

/-- Of options with one name, all have the name that is looked for, or none has. -/
theorem filter_settled {α : Type} (p o : OptionSpec) (f : α → List String) (as : List α) :
    (as.map fun a => (p, f a)).filter (·.1.long = o.long) =
      if p.long = o.long then as.map fun a => (p, f a) else [] := by
  split
  · next h =>
    apply List.filter_eq_self.mpr
    intro given hgiven
    obtain ⟨a, -, rfl⟩ := List.mem_map.mp hgiven
    exact decide_eq_true h
  · next h =>
    apply List.filter_eq_nil_iff.mpr
    intro given hgiven
    obtain ⟨a, -, rfl⟩ := List.mem_map.mp hgiven
    simpa using h

/-- What the level has of an option. -/
theorem filter_metaEnd (component : String) (metrics : List String) (vs : List (List String))
    (o : OptionSpec) :
    (metaEnd component metrics vs).given.filter (·.1.long = o.long) =
      (if metricOption.long = o.long then
        metrics.map fun text => (metricOption, metricOption.textsOf text) else []) ++
      (if paramOption.long = o.long then vs.map fun v => (paramOption, v) else []) := by
  show (metaGiven metrics vs).filter _ = _
  rw [metaGiven, List.filter_append, filter_settled, filter_settled]

/-- The level is complete if it has a metric. -/
theorem isComplete_metaEnd (component : String) (metrics : List String)
    (vs : List (List String)) : (metaEnd component metrics vs).isComplete = !metrics.isEmpty := by
  have hhas : (metaEnd component metrics vs).has metricOption.long = !metrics.isEmpty := by
    rw [Level.has, any_eq_not_isEmpty_filter, filter_metaEnd, if_pos rfl, if_neg (by decide)]
    simp
  show (true && ((metaEnd component metrics vs).has metricOption.long || false) && true) = _
  rw [hhas]
  simp

theorem values_metricOption (component : String) (metrics : List String)
    (vs : List (List String)) :
    values (metaEnd component metrics vs) metricOption = splitKeys metrics := by
  rw [values, filter_metaEnd, if_pos rfl, if_neg (by decide), List.append_nil, List.flatMap_map]
  rfl

theorem values_paramOption (component : String) (metrics params : List String) :
    values (metaEnd component metrics (params.map ([·]))) paramOption = params := by
  rw [values, filter_metaEnd, if_neg (by decide), if_pos rfl, List.nil_append, List.flatMap_map,
    List.flatMap_map]
  exact List.flatMap_singleton' params

/-- The options that all commands know are not given. -/
theorem globalsOf_metaEnd (server project : Option String) (component : String)
    (metrics : List String) (vs : List (List String)) :
    globalsOf (globals server project) (aroundMeta.reverse ++ [metaEnd component metrics vs]) =
      { server, project } := by
  have hvalue (o : OptionSpec) (ho : metricOption.long ≠ o.long ∧ paramOption.long ≠ o.long) :
      (aroundMeta.reverse ++ [metaEnd component metrics vs]).reverse.findSome? (value? · o) =
        none := by
    have hend : value? (metaEnd component metrics vs) o = none := by
      rw [value?, values, filter_metaEnd, if_neg ho.1, if_neg ho.2]
      rfl
    show [metaEnd component metrics vs, _, _].findSome? (value? · o) = none
    rw [List.findSome?_cons, hend]
    rfl
  have hhas (o : OptionSpec) (ho : metricOption.long ≠ o.long ∧ paramOption.long ≠ o.long) :
      (aroundMeta.reverse ++ [metaEnd component metrics vs]).any (·.has o.long) = false := by
    have hend : (metaEnd component metrics vs).has o.long = false := by
      rw [Level.has, any_eq_not_isEmpty_filter, filter_metaEnd, if_neg ho.1, if_neg ho.2]
      rfl
    rw [List.any_append, List.any_cons, hend]
    rfl
  rw [globalsOf, globalValue?, globalValue?, hvalue serverOption (by decide),
    hvalue projectOption (by decide), hhas mockOption (by decide), hhas jsonOption (by decide)]
  cases server <;> cases project <;> rfl

/-- Without a metric something is missing. -/
theorem close_metaEnd (server project : Option String) (component : String)
    (metrics : List String) (vs : List (List String)) :
    (State.reading aroundMeta (metaEnd component metrics vs)).close (globals server project) =
      if metrics.isEmpty then .error .missingRequired
      else .ok (aroundMeta.reverse ++ [metaEnd component metrics vs]) := by
  have hend : (metaEnd component metrics vs).close (globals server project) false =
      if !metrics.isEmpty then .ok (metaEnd component metrics vs) else .error .missingRequired := by
    rw [← isComplete_metaEnd component metrics vs]
    exact Level.close_eq rfl (.inl rfl) rfl
  have haround : aroundMeta.mapM (Level.close (globals server project) true) = .ok aroundMeta := rfl
  rw [State.close, hend, haround]
  cases metrics.isEmpty with
  | true => rfl
  | false => rfl

/-- What the line asks for when it has been read. -/
theorem task_metaEnd (component : String) (metrics params : List String) :
    let l := metaEnd component metrics (params.map ([·]))
    task? l.path.tail l = some (.server
      (.measuresAndMeta component (splitKeys metrics) (params.map pairOf))) := by
  intro l
  have htask : task? l.path.tail l = some (.server
      (.measuresAndMeta component (values l metricOption) ((values l paramOption).map pairOf))) :=
    rfl
  rw [htask, values_metricOption, values_paramOption]

/-- The line is understood if all its texts are pairs and it has a metric. A text that is no pair is
a fault. -/
theorem read_metaLine (server project : Option String) (component : String)
    (metrics params : List String) :
    (∀ text ∈ params, ∃ p, IsPair text p) ∧
        read server project (metaLine component metrics params) =
          (if metrics.isEmpty then .error .missingRequired
          else .ok
            { options := { server, project }
              task := .server (.measuresAndMeta component (splitKeys metrics)
                (params.map pairOf)) }) ∨
      ∃ text ∈ params, ∃ reason, Level.pairFault? text = some reason ∧
        read server project (metaLine component metrics params) =
          .error (.badPair paramOption text reason) := by
  have hfold := fold_metaLine server project component metrics params
  have hread : CommandLine.read program (globals server project)
      (metaLine component metrics params) =
        ((params.mapM (Level.valuesOf paramOption)).map fun values =>
          State.reading aroundMeta (metaEnd component metrics values)) >>=
            State.close (globals server project) := by
    rw [CommandLine.read, hfold]
  rcases mapM_params params with ⟨hpairs, hvalues⟩ | ⟨text, htext, reason, hfault, hvalues⟩
  · left
    refine ⟨hpairs, ?_⟩
    have hclose := close_metaEnd server project component metrics (params.map ([·]))
    rw [hvalues] at hread
    cases hmetrics : metrics.isEmpty with
    | true =>
      rw [hmetrics, if_pos rfl] at hclose
      apply bind_error_iff.mpr
      exact .inl (hread.trans hclose)
    | false =>
      rw [hmetrics, if_neg Bool.false_ne_true] at hclose
      apply ok_bind_iff.mpr
      refine ⟨_, hread.trans hclose, ?_⟩
      rw [List.getLast?_concat]
      dsimp only
      rw [task_metaEnd]
      have hglobals := globalsOf_metaEnd server project component metrics (params.map ([·]))
      exact congrArg (fun options => Except.ok (Invocation.mk options _)) hglobals
  · right
    refine ⟨text, htext, reason, hfault, ?_⟩
    rw [hvalues] at hread
    apply bind_error_iff.mpr
    exact .inl hread

end Invocation
end CodeQuality
