import CodeQuality.CommandLine.Invocation
import CodeQuality.Proofs.CommandLine.Reading
import CodeQuality.Proofs.Text.Spans

/-!
# What a command line asks for

A command line that is understood asks for what stands on it: the command is the one that its words
lead to, and each option has the values that stand on the line, lists of keys being split at commas.

* `Line.serverTask?` — what a line asks of a server.
* `Invocation.task_of_read` — the task that a line gives.
* `Invocation.server_of_read`, `Invocation.project_of_read` — the server and the project.
-/

namespace CodeQuality

open CommandLine Invocation

/-! ### Keys -/

/-- Keys that were given with commas between them, one by one. -/
def splitKeys (keys : List String) : List String :=
  keys.flatMap fun key => (Text.split ',' key.toList).map String.ofList

theorem intercalate_split (key : String) :
    ",".intercalate ((Text.split ',' key.toList).map String.ofList) = key := by
  apply String.toList_injective
  rw [String.toList_intercalate, List.map_map]
  simp only [Function.comp_def, String.toList_ofList, List.map_id']
  exact (Text.intercalate_eq_join ',' _).trans (Text.join_split ',' key.toList)

/-- How keys are spread over the options and the commas of a line does not matter. -/
theorem joinKeys_splitKeys (keys : List String) : joinKeys (splitKeys keys) = joinKeys keys := by
  unfold joinKeys
  induction keys with
  | nil => rfl
  | cons key keys ih =>
    have hne (key : String) : (Text.split ',' key.toList).map String.ofList ≠ [] := by
      simpa using Text.split_ne_nil ',' key.toList
    cases keys with
    | nil => simp [splitKeys, intercalate_split]
    | cons next keys =>
      have hsplit : splitKeys (next :: keys) ≠ [] := by
        rw [splitKeys, List.flatMap_cons]
        simp [hne]
      rw [splitKeys, List.flatMap_cons, ← splitKeys,
        String.intercalate_append_of_ne_nil (hne key) hsplit, intercalate_split, ih]
      exact String.intercalate_cons_cons.symm

namespace ServerTask

/-- The task with its keys one by one. -/
def split : ServerTask → ServerTask
  | measures component metrics branch pullRequest =>
    measures component (splitKeys metrics) branch pullRequest
  | measuresAndMeta component metrics additional =>
    measuresAndMeta component (splitKeys metrics) additional
  | projectMeasures projects metrics => projectMeasures (splitKeys projects) (splitKeys metrics)
  | listBranches => listBranches
  | deleteBranch target confirmed => deleteBranch target confirmed
  | renameBranch name => renameBranch name

end ServerTask

/-! ### Lines -/

namespace Invocation

/-- All options that a command line may hold. -/
def knownOptions : List OptionSpec :=
  globalOptions ++ [helpOption, versionOption, branchOption, pullRequestOption, confirmOption,
    metricOption, paramOption, projectsOption]

/-- The line that the arguments make. -/
def line (arguments : List String) : Line := .read knownOptions arguments

theorem covers_knownOptions : Level.Covers knownOptions knownOptions where
  long := by decide
  letter := by
    -- Only the letters that there are have to be looked up.
    have hfound : ∀ o ∈ knownOptions,
        (o.letter?.bind fun c => knownOptions.find? (·.letter? = some c)) =
          o.letter?.map fun _ => o := by decide
    intro o ho c hc
    have ho := hfound o ho
    rwa [hc] at ho

theorem sound_program : program.Sound knownOptions := by
  have hcommands : ∀ c ∈ program.commands, c.Fits knownOptions := by decide
  have hinner : ∀ c ∈ program.commands, ∀ d ∈ c.commands, d.Fits knownOptions := by decide
  have hleaf : ∀ c ∈ program.commands, ∀ d ∈ c.commands, d.commands.isEmpty = true := by decide
  refine .intro (by decide) fun c hc => .intro (hcommands c hc) fun d hd => ?_
  refine .intro (hinner c hc d hd) ?_
  intro e he
  rw [List.isEmpty_iff.mp (hleaf c hc d hd)] at he
  nomatch he

end Invocation

namespace CommandLine.Line

/-- The first command on a line. -/
def command? (line : Line) : Option String := (program.resolve line.words).1.head?

/-- The branch or the pull request that a line names, but not both. -/
def scope? (line : Line) : Option (Option String × Option String) :=
  match line.values branchOption, line.values pullRequestOption with
  | [], [] => some (none, none)
  | [name], [] => some (some name, none)
  | [], [id] => some (none, some id)
  | _, _ => none

/-- The one branch or pull request that a line names. -/
def target? (line : Line) : Option DeleteTarget :=
  match line.values branchOption, line.values pullRequestOption with
  | [name], [] => some (.branch name)
  | [], [id] => some (.pullRequest id)
  | _, _ => none

/-- What a line asks of a server, with its keys as they stand on the line. -/
def serverTask? (line : Line) : Option ServerTask :=
  match program.resolve line.words with
  | (["branch", "list"], _) => some .listBranches
  | (["branch", "delete"], _) =>
    line.target?.map fun target => .deleteBranch target (line.has confirmOption)
  | (["branch", "rename"], [name]) => some (.renameBranch name)
  | (["measure", "get"], operands) =>
    line.scope?.map fun (branch, pullRequest) =>
      .measures operands.head? (line.values metricOption) branch pullRequest
  | (["measure", "meta"], operands) =>
    some (.measuresAndMeta operands.head? (line.values metricOption)
      ((line.values paramOption).map pairOf))
  | (["measure", "projects"], _) =>
    some (.projectMeasures (line.values projectsOption) (line.values metricOption))
  | _ => none

end CommandLine.Line

/-! ### Options -/

namespace CommandLine

variable {table : List OptionSpec} {g : Globals} {root : CommandSpec} {line : Line}
  {outer : List Level} {l : Level} {o : OptionSpec}

/-- Options of one name are settled as the texts behind them say. -/
theorem flatMap_settledOf {entries : List (OptionSpec × Option String)}
    (h : ∀ given ∈ entries, given.1 = o) :
    (entries.map settledOf).flatMap (·.2) = (entries.filterMap (·.2)).flatMap o.textsOf := by
  induction entries with
  | nil => rfl
  | cons given entries ih =>
    obtain ⟨hfirst, hrest⟩ := List.forall_mem_cons.mp h
    obtain ⟨first, value⟩ := given
    obtain rfl : first = o := hfirst
    rw [List.map_cons, List.flatMap_cons, ih hrest]
    cases value <;> rfl

theorem filter_settledOf (p : OptionSpec → Bool) (entries : List (OptionSpec × Option String)) :
    (entries.map settledOf).filter (fun given => p given.1) =
      (entries.filter fun given => p given.1).map settledOf := by
  rw [List.filter_map]
  congr 1
  apply List.filter_congr
  intro given _
  rw [Function.comp_apply, settledOf_fst]

/-- Is the option one of the table, and are all options of the line? -/
structure Lists (table : List OptionSpec) (line : Line) (o : OptionSpec) : Prop where
  covers : Level.Covers table table
  fits : ∀ given ∈ line.options, given.1 ∈ table ∧ (given.2 = none → given.1.takesValue = false)
  mem : o ∈ table

namespace Lists

theorem eq_of_long (h : Lists table line o) {given : OptionSpec × Option String}
    (hgiven : given ∈ line.options.filter (·.1.long = o.long)) : given.1 = o := by
  obtain ⟨hmem, hlong⟩ := List.mem_filter.mp hgiven
  have hlong : given.1.long = o.long := by simpa using hlong
  have hfound := h.covers.long given.1 (h.fits given hmem).1
  rw [hlong, h.covers.long o h.mem] at hfound
  exact (Option.some.inj hfound).symm

/-- All values of an option are those that stand on the line. -/
theorem flatMap_values (h : Lists table line o) (hholds : Holds g root line outer l) :
    (outer ++ [l]).flatMap (Invocation.values · o) = (line.values o).flatMap o.textsOf := by
  have hlevels : (outer ++ [l]).flatMap (Invocation.values · o) =
      (((outer ++ [l]).flatMap Level.given).filter (·.1.long = o.long)).flatMap (·.2) := by
    rw [List.filter_flatMap, List.flatMap_assoc]
    rfl
  rw [hlevels, hholds.given, filter_settledOf (fun p => p.long = o.long)]
  exact flatMap_settledOf fun given hgiven => h.eq_of_long hgiven

end Lists

/-- An option that not all commands know stands at the innermost level. -/
theorem Holds.filter_given (hholds : Holds g root line outer l)
    (hlocal : ∀ p ∈ g.options ++ [helpOption, versionOption], p.long ≠ o.long) :
    l.given.filter (·.1.long = o.long) =
      (line.options.filter (·.1.long = o.long)).map settledOf := by
  have houter : (outer.flatMap Level.given).filter (·.1.long = o.long) = [] := by
    apply List.filter_eq_nil_iff.mpr
    intro given hgiven
    obtain ⟨m, hm, hgiven⟩ := List.mem_flatMap.mp hgiven
    simpa using hlocal given.1 (hholds.outer m hm given hgiven)
  rw [← filter_settledOf (fun p => p.long = o.long), ← hholds.given, List.flatMap_append,
    List.filter_append, houter, List.nil_append, List.flatMap_singleton]

theorem any_eq_not_isEmpty_filter {α : Type} (p : α → Bool) (as : List α) :
    as.any p = !(as.filter p).isEmpty := by
  induction as with
  | nil => rfl
  | cons a as ih => cases hp : p a <;> simp [hp, ih]

/-- What a line holds of an option that not all commands know. -/
structure Local (table : List OptionSpec) (g : Globals) (line : Line) (o : OptionSpec) : Prop
    extends Lists table line o where
  inner : ∀ p ∈ g.options ++ [helpOption, versionOption], p.long ≠ o.long

namespace Local

/-- The values that the innermost level has are those on the line. -/
theorem values_eq (h : Local table g line o) (hholds : Holds g root line outer l) :
    Invocation.values l o = (line.values o).flatMap o.textsOf := by
  rw [Invocation.values, hholds.filter_given h.inner]
  exact flatMap_settledOf fun given hgiven => h.eq_of_long hgiven

theorem has_eq (h : Local table g line o) (hholds : Holds g root line outer l) :
    l.has o.long = line.has o := by
  rw [Level.has, Line.has, any_eq_not_isEmpty_filter, any_eq_not_isEmpty_filter,
    hholds.filter_given h.inner, List.isEmpty_map]

/-- An option that is given once has one value, or none if it is not there. -/
theorem single (h : Local table g line o) (hholds : Holds g root line outer l)
    (hone : o.isRepeatable = false) (htakes : o.takesValue = true) :
    line.has o = false ∧ line.values o = [] ∨
      ∃ text, line.has o = true ∧ line.values o = [text] := by
  have hgiven := hholds.filter_given h.inner
  have honce : Level.Once (l.given.filter (·.1.long = o.long)) :=
    (hholds.once l (by simp)).filter _
  have heq {given : OptionSpec × Option String}
      (hmem : given ∈ line.options.filter (·.1.long = o.long)) : given.1 = o := h.eq_of_long hmem
  have hfits {given : OptionSpec × Option String}
      (hmem : given ∈ line.options.filter (·.1.long = o.long)) : given.2 ≠ none := by
    intro hnone
    have hswitch := (h.fits given (List.mem_filter.mp hmem).1).2 hnone
    rw [heq hmem, htakes] at hswitch
    nomatch hswitch
  rw [hgiven] at honce
  unfold Line.values
  rw [Line.has, any_eq_not_isEmpty_filter]
  generalize line.options.filter (·.1.long = o.long) = entries at *
  match entries with
  | [] => exact .inl ⟨rfl, rfl⟩
  | [(first, value)] =>
    cases value with
    | none => exact absurd rfl (hfits List.mem_cons_self)
    | some text => exact .inr ⟨text, rfl, rfl⟩
  | first :: second :: _ =>
    -- The second one would have been given before.
    obtain ⟨hfirst, -⟩ := List.pairwise_cons.mp honce
    have hne := hfirst (settledOf second) List.mem_cons_self
    rw [settledOf_fst, settledOf_fst, heq List.mem_cons_self,
      heq (List.mem_cons_of_mem _ List.mem_cons_self)] at hne
    exact absurd rfl (hne hone)

end Local

/-! ### Commands -/

/-- The first word leads to a command inside, and the others lead on from there. -/
theorem CommandSpec.exists_of_resolve {c : CommandSpec} {words names : List String} {name : String}
    (h : (c.resolve words).1 = name :: names) :
    ∃ d ∈ c.commands, d.name = name ∧ ∃ rest, (d.resolve rest).1 = names ∧
      c.leaf words = d.leaf rest := by
  cases words with
  | nil => cases h
  | cons word words =>
    cases hfind : c.find? word with
    | none =>
      rw [resolve, hfind] at h
      cases h
    | some d =>
      rw [resolve_cons_some hfind] at h
      cases h
      exact ⟨d, mem_of_find? hfind, rfl, words, rfl, leaf_cons_some hfind⟩

/-- The command that two names lead to. -/
theorem leaf_of_names {words : List String} {name inner : String}
    {P : CommandSpec → Prop}
    (hprogram : ∀ c ∈ program.commands, c.name = name → ∀ d ∈ c.commands, d.name = inner →
      d.commands.isEmpty = true ∧ P d)
    (h : (program.resolve words).1 = [name, inner]) : P (program.leaf words) := by
  obtain ⟨c, hc, hname, rest, hrest, hleaf⟩ := CommandSpec.exists_of_resolve h
  obtain ⟨d, hd, hinner, operands, -, hleaf'⟩ := CommandSpec.exists_of_resolve hrest
  obtain ⟨hcommands, hd⟩ := hprogram c hc hname d hd hinner
  rw [hleaf, hleaf', (CommandSpec.resolve_of_nil (List.isEmpty_iff.mp hcommands) _).2]
  exact hd

/-- Options that exclude each other do not come both. -/
theorem Level.not_has_of_clash {x y : String} (h : l.clash? = none)
    (hexclusive : l.spec.exclusive = [(x, y)]) (hx : l.has x = true) : l.has y = false := by
  rw [has_eq_false_iff]
  rintro given hgiven rfl
  obtain ⟨other, hother, hlong⟩ : ∃ other ∈ l.given, other.1.long = x := by
    simpa [has] using hx
  unfold clash? at h
  have hfirst := List.findSome?_eq_none_iff.mp h other.1 (List.mem_map_of_mem hother)
  have hboth := List.find?_eq_none.mp (Option.map_eq_none_iff.mp hfirst) given.1
    (List.mem_map_of_mem hgiven)
  exact hboth (by simp [excludes, hexclusive, hlong])

end CommandLine

/-! ### Invocations -/

namespace Invocation

variable {server project : Option String} {arguments : List String} {i : Invocation}
  {outer : List Level} {l : Level}

/-- What the program knows of its options and its environment. -/
def globals (server project : Option String) : Globals :=
  { options := globalOptions
    environment := (server.map (serverOption.long, ·)).toList ++
      (project.map (projectOption.long, ·)).toList }

/-- A line that is understood has levels that hold it, and they say what it asks for. -/
theorem levels_of_read (h : read server project arguments = .ok i) :
    ∃ outer l, Holds (globals server project) program (line arguments) outer l ∧
      i.options = globalsOf (globals server project) (outer ++ [l]) ∧
        task? (program.resolve (line arguments).words).1 l = some i.task := by
  obtain ⟨levels, hlevels, h⟩ := ok_bind_iff.mp h
  have hglobals : ∀ o ∈ globalOptions ++ [helpOption, versionOption], o ∈ knownOptions := by decide
  obtain ⟨outer, l, rfl, hholds⟩ := read_ok covers_knownOptions hglobals sound_program hlevels
  rw [List.getLast?_concat] at h
  dsimp only at h
  rw [hholds.path] at h
  dsimp only [List.tail_cons] at h
  split at h
  · next task htask =>
    cases h
    exact ⟨outer, l, hholds, rfl, htask⟩
  · nomatch h

theorem lists_knownOptions {o : OptionSpec} (ho : o ∈ knownOptions) (arguments : List String) :
    Lists knownOptions (line arguments) o :=
  ⟨covers_knownOptions, Line.fits_read _ _, ho⟩

theorem local_knownOptions {o : OptionSpec} (ho : o ∈ knownOptions)
    (hinner : ∀ p ∈ globalOptions ++ [helpOption, versionOption], p.long ≠ o.long)
    (server project : Option String) (arguments : List String) :
    Local knownOptions (globals server project) (line arguments) o :=
  ⟨lists_knownOptions ho arguments, hinner⟩

theorem flatMap_textsOf_single {o : OptionSpec} {placeholder : String}
    (hkind : o.kind = .single placeholder) (texts : List String) :
    texts.flatMap o.textsOf = texts := by
  have htexts : o.textsOf = fun text => [text] := by
    funext text
    rw [OptionSpec.textsOf, hkind]
  rw [htexts, List.flatMap_singleton']

/-- A level has one value at most for an option that is given once. -/
theorem length_values_le {o : OptionSpec} {placeholder : String} (ho : o ∈ knownOptions)
    (hkind : o.kind = .single placeholder)
    (hholds : Holds (globals server project) program (line arguments) outer l) {m : Level}
    (hm : m ∈ outer ++ [l]) : (values m o).length ≤ 1 := by
  have honce : Level.Once (m.given.filter (·.1.long = o.long)) := (hholds.once m hm).filter _
  have hsettled : ∀ given ∈ m.given.filter (·.1.long = o.long),
      given.1 = o ∧ given.2.length ≤ 1 := by
    intro given hgiven
    obtain ⟨hmem, hlong⟩ := List.mem_filter.mp hgiven
    have hall : given ∈ (line arguments).options.map settledOf := by
      rw [← hholds.given]
      exact List.mem_flatMap_of_mem hm hmem
    obtain ⟨⟨p, value⟩, hp, rfl⟩ := List.mem_map.mp hall
    rw [settledOf_fst] at hlong
    obtain rfl : p = o :=
      (lists_knownOptions ho arguments).eq_of_long (List.mem_filter.mpr ⟨hp, hlong⟩)
    refine ⟨settledOf_fst _, ?_⟩
    cases value with
    | none => exact Nat.zero_le 1
    | some text =>
      rw [settledOf, OptionSpec.textsOf, hkind]
      exact Nat.le_refl 1
  unfold values
  generalize m.given.filter (·.1.long = o.long) = entries at honce hsettled
  rcases entries with _ | ⟨first, _ | ⟨second, later⟩⟩
  · exact Nat.zero_le 1
  · rw [List.flatMap_singleton]
    exact (hsettled first List.mem_cons_self).2
  · -- The second one would have been given before.
    obtain ⟨hfirst, -⟩ := List.pairwise_cons.mp honce
    have hne := hfirst second List.mem_cons_self
    rw [(hsettled first List.mem_cons_self).1,
      (hsettled second (List.mem_cons_of_mem _ List.mem_cons_self)).1] at hne
    have hrepeatable : o.isRepeatable = false := by rw [OptionSpec.isRepeatable, hkind]
    exact absurd rfl (hne hrepeatable)

theorem head?_eq_getLast? {α : Type} {as : List α} (h : as.length ≤ 1) :
    as.head? = as.getLast? := by
  match as with
  | [] => rfl
  | [_] => rfl
  | _ :: _ :: _ => simp at h

/-- A global option has the last of its values on the line, which is the innermost one, and if there
is none that of the environment. -/
theorem globalValue?_eq {o : OptionSpec} {placeholder : String} (ho : o ∈ knownOptions)
    (hkind : o.kind = .single placeholder)
    (hholds : Holds (globals server project) program (line arguments) outer l) :
    globalValue? (globals server project) (outer ++ [l]) o =
      ((line arguments).values o).getLast?.or
        ((globals server project).environment.lookup o.long) := by
  have hvalues := (lists_knownOptions ho arguments).flatMap_values hholds
  rw [flatMap_textsOf_single hkind] at hvalues
  have hlast : ∀ m ∈ (outer ++ [l]).reverse, value? m o = (values m o).getLast? := by
    intro m hm
    exact head?_eq_getLast? (length_values_le ho hkind hholds (List.mem_reverse.mp hm))
  rw [globalValue?, ← hvalues, List.getLast?_flatMap]
  congr 1
  generalize (outer ++ [l]).reverse = levels at hlast
  induction levels with
  | nil => rfl
  | cons m levels ih =>
    obtain ⟨hfirst, hrest⟩ := List.forall_mem_cons.mp hlast
    rw [List.findSome?_cons, List.findSome?_cons, hfirst, ih hrest]

/-- A switch that all commands know is on if it stands anywhere on the line. -/
theorem any_has_eq {o : OptionSpec}
    (hholds : Holds (globals server project) program (line arguments) outer l) :
    (outer ++ [l]).any (·.has o.long) = (line arguments).has o := by
  unfold Level.has Line.has
  rw [← List.any_flatMap, hholds.given, List.any_map]
  congr 1
  funext given
  rw [Function.comp_apply, settledOf_fst]

/-- A line names a branch or a pull request or neither, where they exclude each other. -/
theorem scope_cases (hholds : Holds (globals server project) program (line arguments) outer l)
    (hexclusive : l.spec.exclusive = [(branchOption.long, pullRequestOption.long)]) :
    (l.has branchOption.long = false ∧ l.has pullRequestOption.long = false ∧
        (line arguments).values branchOption = [] ∧
        (line arguments).values pullRequestOption = []) ∨
      (∃ name, (line arguments).values branchOption = [name] ∧
        (line arguments).values pullRequestOption = []) ∨
      ∃ id, (line arguments).values branchOption = [] ∧
        (line arguments).values pullRequestOption = [id] := by
  have hbranch : Local knownOptions (globals server project) (line arguments) branchOption :=
    local_knownOptions (by decide) (by decide) server project arguments
  have hpull : Local knownOptions (globals server project) (line arguments) pullRequestOption :=
    local_knownOptions (by decide) (by decide) server project arguments
  rcases hbranch.single hholds rfl rfl with ⟨hnot, hnone⟩ | ⟨name, hhas, hname⟩
  · rcases hpull.single hholds rfl rfl with ⟨hnot', hnone'⟩ | ⟨id, -, hid⟩
    · rw [← hbranch.has_eq hholds] at hnot
      rw [← hpull.has_eq hholds] at hnot'
      exact .inl ⟨hnot, hnot', hnone, hnone'⟩
    · exact .inr (.inr ⟨id, hnone, hid⟩)
  · rcases hpull.single hholds rfl rfl with ⟨-, hnone'⟩ | ⟨id, hhas', -⟩
    · exact .inr (.inl ⟨name, hname, hnone'⟩)
    · have hclash := Level.not_has_of_clash hholds.clash hexclusive
        ((hbranch.has_eq hholds).trans hhas)
      rw [hpull.has_eq hholds, hhas'] at hclash
      nomatch hclash

/-- The innermost level has the values on the line of all options that not all commands know. -/
theorem values_of_holds
    (hholds : Holds (globals server project) program (line arguments) outer l) {o : OptionSpec}
    (ho : o ∈ knownOptions)
    (hinner : ∀ p ∈ globalOptions ++ [helpOption, versionOption], p.long ≠ o.long) :
    values l o = ((line arguments).values o).flatMap o.textsOf :=
  (local_knownOptions ho hinner server project arguments).values_eq hholds

theorem values_scope (hholds : Holds (globals server project) program (line arguments) outer l) :
    values l branchOption = (line arguments).values branchOption ∧
      values l pullRequestOption = (line arguments).values pullRequestOption := by
  have hbranch := values_of_holds (o := branchOption) hholds (by decide) (by decide)
  have hpull := values_of_holds (o := pullRequestOption) hholds (by decide) (by decide)
  rw [flatMap_textsOf_single rfl] at hbranch hpull
  exact ⟨hbranch, hpull⟩

/-- What is to be deleted is the one branch or pull request on the line. -/
theorem targetOf_eq (hholds : Holds (globals server project) program (line arguments) outer l)
    (hnames : (program.resolve (line arguments).words).1 = ["branch", "delete"]) :
    targetOf l = (line arguments).target? := by
  obtain ⟨hexclusive, hrequired⟩ := leaf_of_names
    (P := fun d => d.exclusive = [(branchOption.long, pullRequestOption.long)] ∧
      d.required = [[branchOption.long, pullRequestOption.long]])
    (by decide) hnames
  rw [← hholds.spec] at hexclusive hrequired
  obtain ⟨hbranch, hpull⟩ := values_scope hholds
  unfold targetOf Line.target?
  rw [value?, value?, hbranch, hpull]
  rcases scope_cases hholds hexclusive with ⟨hnot, hnot', -⟩ | ⟨name, hname, hnone⟩ |
    ⟨id, hnone, hid⟩
  · -- One of them has to be there.
    have hcomplete := hholds.complete
    simp [Level.isComplete, hrequired, hnot, hnot'] at hcomplete
  · rw [hname, hnone]
    rfl
  · rw [hnone, hid]
    rfl

/-- What is measured is the branch or the pull request on the line, if there is one. -/
theorem scope?_eq (hholds : Holds (globals server project) program (line arguments) outer l)
    (hnames : (program.resolve (line arguments).words).1 = ["measure", "get"]) :
    (line arguments).scope? = some (value? l branchOption, value? l pullRequestOption) := by
  have hexclusive := leaf_of_names
    (P := fun d => d.exclusive = [(branchOption.long, pullRequestOption.long)]) (by decide) hnames
  rw [← hholds.spec] at hexclusive
  obtain ⟨hbranch, hpull⟩ := values_scope hholds
  unfold Line.scope?
  rw [value?, value?, hbranch, hpull]
  rcases scope_cases hholds hexclusive with ⟨-, -, hnone, hnone'⟩ | ⟨name, hname, hnone⟩ |
    ⟨id, hnone, hid⟩
  · rw [hnone, hnone']
    rfl
  · rw [hname, hnone]
    rfl
  · rw [hnone, hid]
    rfl

/-- What is asked of a server is what stands on the line. -/
theorem serverTask?_eq (hholds : Holds (globals server project) program (line arguments) outer l) :
    Invocation.serverTask? (program.resolve (line arguments).words).1 l =
      (line arguments).serverTask?.map ServerTask.split := by
  have hmetrics : values l metricOption = splitKeys ((line arguments).values metricOption) :=
    values_of_holds hholds (by decide) (by decide)
  have hprojects : values l projectsOption = splitKeys ((line arguments).values projectsOption) :=
    values_of_holds hholds (by decide) (by decide)
  have hparams : values l paramOption = (line arguments).values paramOption :=
    (values_of_holds hholds (by decide) (by decide)).trans (List.flatMap_singleton' _)
  have hconfirmed : l.has confirmOption.long = (line arguments).has confirmOption :=
    (local_knownOptions (by decide) (by decide) server project arguments).has_eq hholds
  have htarget := targetOf_eq hholds
  have hscope := scope?_eq hholds
  have hoperands := hholds.operands
  unfold Line.serverTask?
  generalize program.resolve (line arguments).words = found at htarget hscope hoperands ⊢
  obtain ⟨names, operands⟩ := found
  dsimp only at htarget hscope hoperands ⊢
  -- The cases are those of the tasks on the line.
  split
  · next heq =>
    cases heq
    rfl
  · next heq =>
    cases heq
    rw [Invocation.serverTask?, htarget rfl, hconfirmed, Option.map_map]
    rfl
  · next heq =>
    cases heq
    unfold Invocation.serverTask?
    rw [hoperands]
    rfl
  · next heq =>
    cases heq
    rw [Invocation.serverTask?, hoperands, hmetrics, hscope rfl]
    rfl
  · next heq =>
    cases heq
    rw [Invocation.serverTask?, hoperands, hmetrics, hparams]
    rfl
  · next heq =>
    cases heq
    rw [Invocation.serverTask?, hmetrics, hprojects]
    rfl
  · next hlist hdelete hrename hget hmeta hsearch =>
    unfold Invocation.serverTask?
    rw [hoperands]
    split
    · exact absurd rfl (hlist _)
    · exact absurd rfl (hdelete _)
    · exact absurd rfl (hrename _)
    · exact absurd rfl (hget _)
    · exact absurd rfl (hmeta _)
    · exact absurd rfl (hsearch _)
    · rfl

theorem task?_eq_server_iff {names : List String} {task : ServerTask} :
    task? names l = some (.server task) ↔ Invocation.serverTask? names l = some task := by
  unfold task?
  split
  iterate 5 exact ⟨(fun h => nomatch h), (fun h => nomatch h)⟩
  cases Invocation.serverTask? names l with
  | some asked =>
    exact ⟨fun h => congrArg some (Task.server.inj (Option.some.inj h)),
      fun h => congrArg (some ∘ Task.server) (Option.some.inj h)⟩
  | none => cases settingsTask? names l <;> exact ⟨(fun h => nomatch h), (fun h => nomatch h)⟩

/-- A run is about a server exactly if the line asks something of one, and it asks what stands on
the line. -/
theorem task_of_read (h : read server project arguments = .ok i) :
    match (line arguments).serverTask? with
    | some asked => i.task = .server asked.split
    | none => ∀ task, i.task ≠ .server task := by
  obtain ⟨outer, l, hholds, -, htask⟩ := levels_of_read h
  have hserver := serverTask?_eq hholds
  cases hasked : (line arguments).serverTask? with
  | some asked =>
    rw [hasked] at hserver
    exact Option.some.inj (htask.symm.trans (task?_eq_server_iff.mpr hserver))
  | none =>
    rw [hasked] at hserver
    intro task heq
    rw [heq] at htask
    nomatch hserver.symm.trans (task?_eq_server_iff.mp htask)

/-- Each command for branches or for measures asks something of a server. -/
theorem head?_of_task? {names : List String} {task : Task} (h : task? names l = some task)
    (hnone : Invocation.serverTask? names l = none) :
    names.head? ∉ [some "branch", some "measure"] := by
  unfold task? at h
  split at h
  case h_6 =>
    rw [hnone] at h
    cases hsettings : settingsTask? names l with
    | none =>
      rw [hsettings] at h
      nomatch h
    | some settings =>
      unfold settingsTask? at hsettings
      split at hsettings
      case h_6 => nomatch hsettings
      all_goals simp
  all_goals simp

theorem command?_of_read (h : read server project arguments = .ok i)
    (hnone : (line arguments).serverTask? = none) :
    (line arguments).command? ∉ [some "branch", some "measure"] := by
  obtain ⟨outer, l, hholds, -, htask⟩ := levels_of_read h
  have hserver := serverTask?_eq hholds
  rw [hnone] at hserver
  exact head?_of_task? htask hserver

/-- The server is the innermost one that the line names, or else that of the environment. -/
theorem lastServer_of_read (h : read server project arguments = .ok i) :
    i.options.server = ((line arguments).values serverOption).getLast?.or server := by
  obtain ⟨outer, l, hholds, hoptions, -⟩ := levels_of_read h
  have hvalue := globalValue?_eq (o := serverOption) (by decide) rfl hholds
  rw [hoptions]
  refine hvalue.trans (congrArg _ ?_)
  cases server <;> cases project <;> rfl

/-- The server is the one that the line names, or else that of the environment. -/
theorem server_of_read (h : read server project arguments = .ok i)
    (hone : ((line arguments).values serverOption).length ≤ 1) :
    i.options.server = ((line arguments).values serverOption).head?.or server := by
  rw [head?_eq_getLast? hone]
  exact lastServer_of_read h

/-- The project is the innermost one that the line names, or else that of the environment. -/
theorem lastProject_of_read (h : read server project arguments = .ok i) :
    i.options.project = ((line arguments).values projectOption).getLast?.or project := by
  obtain ⟨outer, l, hholds, hoptions, -⟩ := levels_of_read h
  have hvalue := globalValue?_eq (o := projectOption) (by decide) rfl hholds
  rw [hoptions]
  refine hvalue.trans (congrArg _ ?_)
  cases server <;> cases project <;> rfl

/-- The project is the one that the line names, or else that of the environment. -/
theorem project_of_read (h : read server project arguments = .ok i)
    (hone : ((line arguments).values projectOption).length ≤ 1) :
    i.options.project = ((line arguments).values projectOption).head?.or project := by
  rw [head?_eq_getLast? hone]
  exact lastProject_of_read h

/-- What is shown is shown in JSON if the line says so. -/
theorem json_of_read (h : read server project arguments = .ok i) :
    i.options.json = (line arguments).has jsonOption := by
  obtain ⟨outer, l, hholds, hoptions, -⟩ := levels_of_read h
  rw [hoptions]
  exact any_has_eq hholds

/-- A run is in mock mode if its line says so. -/
theorem mock_of_read (h : read server project arguments = .ok i) :
    i.options.mock = (line arguments).has mockOption := by
  obtain ⟨outer, l, hholds, hoptions, -⟩ := levels_of_read h
  rw [hoptions]
  exact any_has_eq hholds

end Invocation
end CodeQuality
