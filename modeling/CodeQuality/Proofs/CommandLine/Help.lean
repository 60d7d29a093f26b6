import CodeQuality.Proofs.CommandLine.Task

/-!
# When help is shown

A command line that is not carried out either has a fault or asks for help, and only then nothing is
wrong with it. Help is not shown for any other reason: an option for it stands on the line, or the
words of the line do not lead to a command that does something.

* `Level.heeds_argument` — an argument that asks for help is an option for it.
* `State.asks_of_finish` — a line that asks for help.
* `Invocation.help_of_read` — the lines of the program.
-/

namespace CodeQuality
namespace CommandLine

variable {table : List OptionSpec} {g : Globals} {e : UsageError}

/-- Does the option ask for help, or for the version? -/
def OptionSpec.IsHelp (o : OptionSpec) : Prop := o = helpOption ∨ o = versionOption

/-- Does one of the options ask for help? -/
def AsksHelp (items : List Item) : Prop := ∃ o value, Item.option o value ∈ items ∧ o.IsHelp

theorem AsksHelp.mono {items more : List Item} (h : AsksHelp items) (hmore : items ⊆ more) :
    AsksHelp more := by
  obtain ⟨o, value, hmem, hhelp⟩ := h
  exact ⟨o, value, hmore hmem, hhelp⟩

namespace Level

variable {l l' : Level} {o : OptionSpec} {value : Option String} {text : String}

/-- Is the option that came last none for help? -/
def Expects (l : Level) : Prop :=
  ∀ given, l.pending = some given →
    given.1.long ≠ helpOption.long ∧ given.1.long ≠ versionOption.long

theorem Expects.opened (spec : CommandSpec) (path : List String) : Expects { spec, path } := nofun

/-! ### Options -/

theorem exitCode_of_valuesOf (h : valuesOf o text = .error e) : e.exitCode ≠ 0 := by
  unfold valuesOf at h
  split at h
  · nomatch h
  · nomatch h
  · nomatch h
  · split at h
    · cases h
      exact Nat.succ_ne_zero 1
    · nomatch h

/-- Settling an option that is none for help shows none. -/
theorem exitCode_of_settle (hhelp : o.long ≠ helpOption.long)
    (hversion : o.long ≠ versionOption.long) (h : l.settle o value = .error e) :
    e.exitCode ≠ 0 := by
  change (if o.long = helpOption.long then _ else if o.long = versionOption.long then _ else _) =
    Except.error e at h
  rw [if_neg hhelp, if_neg hversion] at h
  cases value with
  | none =>
    dsimp only at h
    split at h
    · cases h; exact Nat.succ_ne_zero 1
    · split at h
      · cases h; exact Nat.succ_ne_zero 1
      · nomatch h
  | some text =>
    dsimp only at h
    split at h
    · cases h; exact Nat.succ_ne_zero 1
    · obtain hvalues | ⟨values, -, h⟩ := bind_error_iff.mp h
      · exact exitCode_of_valuesOf hvalues
      · nomatch h

/-- An option is known by its name. -/
theorem eq_of_long {p : OptionSpec} (hcovers : Covers table (l.options g)) (ho : o ∈ l.options g)
    (hp : p ∈ [helpOption, versionOption]) (h : o.long = p.long) : o = p := by
  have hfound := hcovers.long o ho
  rw [h, hcovers.long p (List.mem_append_right _ hp)] at hfound
  exact (Option.some.inj hfound).symm

theorem isHelp_of_settle (hcovers : Covers table (l.options g)) (ho : o ∈ l.options g)
    {m : Level} (h : m.settle o value = .error e) (he : e.exitCode = 0) : o.IsHelp := by
  by_cases hhelp : o.long = helpOption.long
  · exact .inl (eq_of_long hcovers ho List.mem_cons_self hhelp)
  by_cases hversion : o.long = versionOption.long
  · exact .inr (eq_of_long hcovers ho (List.mem_cons_of_mem _ List.mem_cons_self) hversion)
  exact absurd he (exitCode_of_settle hhelp hversion h)

/-- An option for help takes no value. -/
theorem long_ne_of_takesValue (hcovers : Covers table (l.options g)) (ho : o ∈ l.options g)
    (htakes : o.takesValue = true) :
    o.long ≠ helpOption.long ∧ o.long ≠ versionOption.long := by
  have hne {p : OptionSpec} (hp : p ∈ [helpOption, versionOption])
      (hswitch : p.takesValue = false) : o.long ≠ p.long := by
    intro h
    rw [eq_of_long hcovers ho hp h, hswitch] at htakes
    nomatch htakes
  exact ⟨hne List.mem_cons_self rfl, hne (List.mem_cons_of_mem _ List.mem_cons_self) rfl⟩

theorem exitCode_of_settlePending (hexpects : l.Expects) (h : l.settlePending = .error e) :
    e.exitCode ≠ 0 := by
  unfold settlePending at h
  split at h
  · nomatch h
  · next o value hpending =>
    obtain ⟨hhelp, hversion⟩ := hexpects _ hpending
    exact exitCode_of_settle hhelp hversion h

/-! ### Arguments -/

/-- What has been read for a level goes on, or it has a fault, or one of the items asks for help. -/
def Heeds (items : List Item) : Except UsageError Level → Prop
  | .ok l => l.Expects
  | .error e => e.exitCode = 0 → AsksHelp items

theorem Heeds.of_fault {items : List Item} (h : e.exitCode ≠ 0) : Heeds items (.error e) :=
  fun he => absurd he h

theorem Heeds.mono {items more : List Item} {x : Except UsageError Level} (h : Heeds items x)
    (hmore : items ⊆ more) : Heeds more x := by
  cases x with
  | ok => exact h
  | error => exact fun he => (h he).mono hmore

/-- Whatever comes next, the option that came last has to be settled first. -/
theorem heeds_bind_settlePending {items : List Item} {f : Level → Except UsageError Level}
    (hexpects : l.Expects)
    (hf : ∀ next, l.settlePending = .ok next → Heeds items (f next)) :
    Heeds items (l.settlePending >>= f) := by
  cases h : l.settlePending with
  | error e => exact .of_fault (exitCode_of_settlePending hexpects h)
  | ok next => exact hf next h

/-- An option that is settled asks for help if it is one for help. -/
theorem heeds_settle (hcovers : Covers table (l.options g)) (hlive : l.Live g)
    (ho : o ∈ l.options g) {next : Level} (hnext : l.settlePending = .ok next) :
    Heeds [.option o value]
      (do let l ← next.settle o value; return { l with awaiting := false }) := by
  cases h : next.settle o value with
  | error e => exact fun he => ⟨o, value, List.mem_cons_self, isHelp_of_settle hcovers ho h he⟩
  | ok settled =>
    obtain ⟨rfl, -⟩ := settlePending_ok hlive hnext
    obtain ⟨rfl, -⟩ := settle_ok h
    exact nofun

theorem heeds_takeWith (hcovers : Covers table (l.options g)) (hlive : l.Live g)
    (hexpects : l.Expects) (ho : o ∈ l.options g) :
    Heeds [.option o (some text)] (l.takeWith o text) :=
  heeds_bind_settlePending hexpects fun _ hnext =>
    heeds_settle hcovers hlive ho hnext

theorem heeds_take (hcovers : Covers table (l.options g)) (hlive : l.Live g)
    (hexpects : l.Expects) (ho : o ∈ l.options g) :
    Heeds (if o.takesValue then [] else [.option o none]) (l.take o) := by
  apply heeds_bind_settlePending hexpects
  intro next hnext
  split
  · next htakes =>
    rintro _ ⟨⟩
    exact long_ne_of_takesValue hcovers ho htakes
  · exact heeds_settle hcovers hlive ho hnext

theorem heeds_long {body : String} (htable : Covers table (l.options g)) (hlive : l.Live g)
    (hexpects : l.Expects) : Heeds (Mode.long table body).1 (l.long g body) := by
  unfold long Mode.long
  generalize cutAtEquals body = cut
  obtain ⟨name, value⟩ := cut
  dsimp only
  cases hfind : (l.options g).find? (·.long = name) with
  | none => exact .of_fault (Nat.succ_ne_zero 1)
  | some o =>
    have ho := List.mem_of_find?_eq_some hfind
    have hname : o.long = name := by simpa using List.find?_some hfind
    rw [← hname, htable.long o ho]
    cases value with
    | none =>
      have htaken := heeds_take htable hlive hexpects ho
      dsimp only
      split
      · next htakes => rwa [if_pos htakes] at htaken
      · next htakes => rwa [if_neg htakes] at htaken
    | some text =>
      dsimp only
      split
      · exact heeds_takeWith htable hlive hexpects ho
      · exact .of_fault (Nat.succ_ne_zero 1)

theorem heeds_letters {cs : List Char} (htable : Covers table (l.options g)) (hlive : l.Live g)
    (hexpects : l.Expects) (honly : l.onlyOperands = false) :
    Heeds (Mode.letters table cs).1 (l.letters g cs) := by
  induction cs generalizing l with
  | nil => exact hexpects
  | cons c cs ih =>
    unfold letters Mode.letters
    cases hfind : (l.options g).find? (·.letter? = some c) with
    | none => exact .of_fault (Nat.succ_ne_zero 1)
    | some o =>
      have ho := List.mem_of_find?_eq_some hfind
      have hletter : o.letter? = some c := by simpa using List.find?_some hfind
      rw [htable.letter o ho c hletter]
      have htaken := heeds_take htable hlive hexpects ho
      dsimp only
      cases htakes : o.takesValue with
      | true =>
        rw [htakes, if_pos rfl] at htaken
        rw [if_pos rfl, if_pos rfl]
        clear ih
        cases cs with
        | nil => exact htaken
        | cons d ds =>
          rw [List.isEmpty_cons, if_neg Bool.false_ne_true]
          split
          · next heq => cases heq
          · next heq =>
            rw [heq]
            exact heeds_takeWith htable hlive hexpects ho
          · next hequals =>
            rw [Mode.attached_of_ne hequals]
            exact heeds_takeWith htable hlive hexpects ho
      | false =>
        rw [htakes, if_neg Bool.false_ne_true] at htaken
        rw [if_neg Bool.false_ne_true, if_neg Bool.false_ne_true]
        -- An option that takes nothing leaves the letters behind it to be read.
        cases htake : l.take o with
        | error e =>
          rw [htake] at htaken
          exact htaken.mono (List.cons_subset_cons _ (List.nil_subset _))
        | ok next =>
          rw [htake] at htaken
          have hfollows := take_ok hlive ho honly htake
          rw [htakes, if_neg Bool.false_ne_true] at hfollows
          have htable' : Covers table (next.options g) := by
            rw [options, hfollows.spec]
            exact htable
          have hrest := ih htable' hfollows.live htaken (onlyOperands_of_mode hfollows.mode)
          exact hrest.mono (List.subset_cons_self _ _)

theorem heeds_operand (items : List Item) (hlive : l.Live g)
    (hexpects : l.Expects) : Heeds items (l.operand text) := by
  unfold operand
  split
  · apply heeds_bind_settlePending hexpects
    intro next hnext
    obtain ⟨rfl, -⟩ := settlePending_ok hlive hnext
    exact nofun
  · split
    · exact .of_fault (Nat.succ_ne_zero 1)
    · split <;> exact .of_fault (Nat.succ_ne_zero 1)

/-- An argument that names no command shows help only if it asks for help. -/
theorem heeds_argument (htable : Covers table (l.options g)) (hlive : l.Live g)
    (hexpects : l.Expects) : Heeds (l.mode.read table text).1 (l.argument g text) := by
  rw [argument_eq]
  cases honly : l.onlyOperands with
  | true => exact heeds_operand _ hlive hexpects
  | false =>
    rw [if_neg Bool.false_ne_true, read_mode honly]
    cases hshape : Shape.of text with
    | hyphens => exact hexpects
    | long body => exact heeds_long htable hlive hexpects
    | letters cs => exact heeds_letters htable hlive hexpects honly
    | plain =>
      dsimp only
      split
      · next o _ _ hpending =>
        have hnone := hexpects _ hpending
        rintro _ ⟨⟩
        exact hnone
      · exact heeds_operand _ hlive hexpects

/-- Closing a level shows no help. -/
theorem exitCode_of_close {inner : Bool} (hexpects : l.Expects) (h : l.close g inner = .error e) :
    e.exitCode ≠ 0 := by
  obtain hpending | ⟨next, -, h⟩ := bind_error_iff.mp h
  · exact exitCode_of_settlePending hexpects hpending
  · dsimp only [bind, Except.bind, throw, throwThe, MonadExceptOf.throw, pure, Except.pure] at h
    split at h
    · split at h <;> (cases h; exact Nat.succ_ne_zero 1)
    · split at h
      · cases h; exact Nat.succ_ne_zero 1
      · split at h
        · nomatch h
        · cases h; exact Nat.succ_ne_zero 1

/-- Closing the levels around another one shows no help. -/
theorem exitCode_of_close_outer {outer : List Level}
    (houter : ∀ m ∈ outer, m.Expects)
    (h : outer.mapM (close g true) = .error e) : e.exitCode ≠ 0 := by
  obtain ⟨m, hm, hclose⟩ := exists_of_mapM_error h
  exact exitCode_of_close (houter m hm) hclose

/-- An option that can no longer have its value is a fault, whatever comes next. -/
theorem exitCode_of_doomed (hexpects : l.Expects) (hdoomed : l.Doomed) :
    ∃ e, l.argument g text = .error e ∧ e.exitCode ≠ 0 := by
  obtain ⟨e, he⟩ := settlePending_of_doomed hdoomed
  rw [argument_eq, hdoomed.1, if_pos rfl]
  unfold operand
  split
  · exact ⟨e, by rw [he]; rfl, exitCode_of_settlePending hexpects he⟩
  · split
    · exact ⟨_, rfl, Nat.succ_ne_zero 1⟩
    · split <;> exact ⟨_, rfl, Nat.succ_ne_zero 1⟩

end Level

/-! ### Lines -/

namespace State

variable {outer : List Level} {l : Level} {arguments : List String}

/-- What is read of a line from a state on until its end. -/
def finish (g : Globals) (s : State) (arguments : List String) : Except UsageError (List Level) :=
  arguments.foldlM (fun s a => s.step g a) s >>= close g

theorem finish_cons (g : Globals) (s : State) (text : String) (arguments : List String) :
    s.finish g (text :: arguments) = s.step g text >>= fun s => s.finish g arguments := by
  rw [finish, List.foldlM_cons, bind_assoc]
  rfl

theorem exitCode_of_finish_nil (hexpects : l.Expects)
    (houter : ∀ m ∈ outer, m.Expects)
    (h : (reading outer l).finish g [] = .error e) : e.exitCode ≠ 0 := by
  change (reading outer l).close g = .error e at h
  obtain hl | ⟨closed, -, h⟩ := bind_error_iff.mp h
  · exact Level.exitCode_of_close hexpects hl
  · obtain hrest | ⟨rest, -, h⟩ := bind_error_iff.mp h
    · exact Level.exitCode_of_close_outer houter hrest
    · nomatch h

/-- Only an argument that names no command can be at fault. -/
theorem argument_of_step {text : String} (h : (reading outer l).step g text = .error e) :
    l.argument g text = .error e := by
  unfold step at h
  dsimp only at h
  split at h
  · nomatch h
  · split at h
    · nomatch h
    · cases hargument : l.argument g text with
      | error e' =>
        rw [hargument] at h
        cases h
        rfl
      | ok next =>
        rw [hargument] at h
        nomatch h

/-- Behind two hyphens no command is named. -/
theorem step_of_onlyOperands (honly : l.onlyOperands = true) (text : String) :
    (reading outer l).step g text = (l.argument g text).map (reading outer) := by
  unfold step
  dsimp only
  rw [honly]
  simp

theorem exitCode_of_doomed (hexpects : l.Expects) (hdoomed : l.Doomed)
    (houter : ∀ m ∈ outer, m.Expects)
    (h : (reading outer l).finish g arguments = .error e) : e.exitCode ≠ 0 := by
  cases arguments with
  | nil => exact exitCode_of_finish_nil hexpects houter h
  | cons text arguments =>
    obtain ⟨e', hargument, he'⟩ : ∃ e', l.argument g text = .error e' ∧ e'.exitCode ≠ 0 :=
      Level.exitCode_of_doomed hexpects hdoomed
    rw [finish_cons, step_of_onlyOperands hdoomed.1, hargument] at h
    cases h
    exact he'

/-- The rest of a line shows help only if it asks for it: by an option, or because its words lead to
a command with others inside it. -/
theorem asks_of_finish
    (hcovers : ∀ l : Level, l.spec.Sound table → Level.Covers table (l.options g))
    (hlive : l.Live g) (hexpects : l.Expects) (hsound : l.spec.Sound table)
    (houter : ∀ m ∈ outer, m.Expects)
    (h : (reading outer l).finish g arguments = .error e) (he : e.exitCode = 0) :
    AsksHelp (l.mode.items table arguments) ∨
      (l.spec.leaf ((l.mode.items table arguments).filterMap Item.word?)).commands ≠ [] := by
  induction arguments generalizing outer l with
  | nil => exact absurd he (exitCode_of_finish_nil hexpects houter h)
  | cons text arguments ih =>
    have hheeds : Level.Heeds (l.mode.read table text).1 (l.argument g text) :=
      Level.heeds_argument (hcovers l hsound) hlive hexpects
    rw [finish_cons] at h
    obtain hstep | ⟨s, hstep, h⟩ := bind_error_iff.mp h
    · rw [argument_of_step hstep] at hheeds
      exact .inl ((hheeds he).mono (List.subset_append_left _ _))
    · obtain ⟨rfl, hfind, hcommands, honly, hawaiting, rfl⟩ |
        ⟨inner, hfind, honly, hawaiting, rfl⟩ | ⟨next, rfl, hnext⟩ := step_cases hstep
      · -- The command around the word `help` has others inside it.
        right
        rw [Mode.items, Level.read_mode_of_plain honly hawaiting (by rfl)]
        rw [List.cons_append, words_cons_word, CommandSpec.leaf, hfind]
        exact hcommands
      · have hopened : Level.Live g { spec := inner, path := l.path ++ [inner.name] } := .opened _ _
        have hinner := CommandSpec.mem_of_find? hfind
        have houter' := List.forall_mem_cons.mpr ⟨hexpects, houter⟩
        rw [Mode.items, Level.read_mode_of_plain honly hawaiting (hsound.isPlain hfind)]
        rw [List.cons_append, List.nil_append, words_cons_word, CommandSpec.leaf_cons_some hfind]
        refine (ih hopened (.opened _ _) (hsound.inner hinner) houter' h).imp_left ?_
        exact fun hasks => hasks.mono (List.subset_cons_self _ _)
      · rw [hnext] at hheeds
        obtain hfollows | hdoomed := Level.argument_ok (hcovers l hsound) hlive hnext
        · have hnext := ih hfollows.live hheeds (hfollows.spec ▸ hsound) houter h
          have hnowords := Decidable.or_iff_not_imp_left.mpr (words_of_follows hsound hfollows)
          obtain ⟨-, hleaf⟩ := CommandSpec.resolve_append hnowords
            (((l.mode.read table text).2.items table arguments).filterMap Item.word?)
          rw [Mode.items, List.filterMap_append, hleaf]
          rw [hfollows.mode, hfollows.spec] at hnext
          refine hnext.imp_left ?_
          exact fun hasks => hasks.mono (List.subset_append_right _ _)
        · exact absurd he (exitCode_of_doomed hheeds hdoomed houter h)

end State
end CommandLine

namespace Invocation

open CommandLine

variable {server project : Option String} {arguments : List String} {e : UsageError}

/-- A line for which nothing is wrong, but which is not carried out, asks for help or for the
version, or its words lead to a command with others inside it. -/
theorem help_of_read (h : read server project arguments = .error e) (he : e.exitCode = 0) :
    (line arguments).has helpOption = true ∨ (line arguments).has versionOption = true ∨
      (program.leaf (line arguments).words).commands ≠ [] := by
  obtain h | ⟨levels, -, h⟩ := bind_error_iff.mp h
  · have hfinish : (State.reading [] { spec := program, path := [program.name] }).finish
        (globals server project) arguments = .error e := h
    have hglobals : ∀ o ∈ globalOptions ++ [helpOption, versionOption], o ∈ knownOptions := by
      decide
    have hasks := State.asks_of_finish
      (fun l hsound => l.covers_options covers_knownOptions hglobals hsound) (.opened _ _)
      (.opened _ _) sound_program (List.forall_mem_nil _) hfinish he
    obtain ⟨o, value, hmem, hhelp⟩ | hcommands := hasks
    · have hgiven : (o, value) ∈ (line arguments).options := List.mem_filterMap.mpr ⟨_, hmem, rfl⟩
      rcases hhelp with rfl | rfl
      · exact .inl (List.any_eq_true.mpr ⟨_, hgiven, decide_eq_true rfl⟩)
      · exact .inr (.inl (List.any_eq_true.mpr ⟨_, hgiven, decide_eq_true rfl⟩))
    · exact .inr (.inr hcommands)
  · exfalso
    split at h
    · cases h; exact Nat.succ_ne_zero 1 he
    · split at h
      · nomatch h
      · cases h; exact Nat.succ_ne_zero 1 he

end Invocation
end CodeQuality
