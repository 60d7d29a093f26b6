import CodeQuality.Proofs.CommandLine.Task

/-!
# Names and values on a command line

A text is cut at its first equals sign into a name and a value. One that has no equals sign, or
nothing in front of it, is a fault, and a line on which such a text stands for an option that takes
pairs is not understood, wherever on the line it stands.

* `IsPair` — a text and the name and the value in it.
* `pairFault?_eq_none_iff`, `pairOf_of_isPair` — how a text is cut.
* `State.valid_step`, `State.valid_fold` — what is settled has been checked.
* `Invocation.isPair_of_read` — the texts of a line that is understood.
-/

namespace CodeQuality

open CommandLine

/-- Is this the name in front of the first equals sign of a text, and the value behind it? -/
structure IsPair (text : String) (p : String × String) : Prop where
  cut : text = p.1 ++ "=" ++ p.2
  named : p.1 ≠ ""
  first : '=' ∉ p.1.toList

/-! ### Equals signs -/

section Cut

variable {text name value : String} {p : String × String}

/-- In front of an equals sign there may be anything but another one. -/
theorem span_of_not_mem (h : '=' ∉ text.toList) : ∀ c ∈ text.toList, decide (c ≠ '=') = true := by
  intro c hc
  apply decide_eq_true
  intro heq
  exact h (heq ▸ hc)

theorem cutAtEquals_append (hname : '=' ∉ name.toList) (value : String) :
    Level.cutAtEquals (name ++ "=" ++ value) = (name, some value) := by
  have hspan := span_of_not_mem hname
  have hend : ∀ c ∈ ('=' :: value.toList).head?, decide (c ≠ '=') = false := by
    simp
  have hchars : (name ++ "=" ++ value).toList = name.toList ++ '=' :: value.toList := by
    simp
  rw [Level.cutAtEquals, hchars, Text.dropWhile_append hspan hend, Text.takeWhile_append hspan hend]
  simp

theorem cutAtEquals_of_not_mem (h : '=' ∉ text.toList) :
    Level.cutAtEquals text = (text, none) := by
  have hdrop : (text.toList ++ []).dropWhile (· ≠ '=') = [] :=
    Text.dropWhile_append (span_of_not_mem h) (by simp)
  rw [List.append_nil] at hdrop
  rw [Level.cutAtEquals, hdrop]

/-- A text with an equals sign has a first one. -/
theorem exists_cut (h : '=' ∈ text.toList) :
    ∃ name value, '=' ∉ name.toList ∧ text = name ++ "=" ++ value := by
  obtain ⟨front, rest, htext, hfront⟩ := List.eq_append_cons_of_mem h
  refine ⟨String.ofList front, String.ofList rest, by simpa using hfront, ?_⟩
  apply String.toList_injective
  simp [htext]

/-- A text is cut into a name and a value exactly if no fault is found with it. -/
theorem pairFault?_eq_none_iff : Level.pairFault? text = none ↔ ∃ p, IsPair text p := by
  by_cases hequals : '=' ∈ text.toList
  case neg =>
    rw [Level.pairFault?, cutAtEquals_of_not_mem hequals]
    refine ⟨nofun, ?_⟩
    intro h
    obtain ⟨p, rfl, -, -⟩ := h
    exact absurd (by simp) hequals
  case pos =>
    obtain ⟨name, value, hfirst, rfl⟩ := exists_cut hequals
    rw [Level.pairFault?, cutAtEquals_append hfirst]
    by_cases hname : name = ""
    · subst hname
      refine ⟨nofun, ?_⟩
      intro h
      obtain ⟨⟨name', value'⟩, htext, hnamed, hfirst'⟩ := h
      -- Nothing stands in front of the first equals sign.
      have hcut := cutAtEquals_append hfirst' value'
      rw [← htext, cutAtEquals_append hfirst] at hcut
      exact absurd (congrArg Prod.fst hcut).symm hnamed
    · have hfound : IsPair (name ++ "=" ++ value) (name, value) := ⟨rfl, hname, hfirst⟩
      refine ⟨fun _ => ⟨_, hfound⟩, ?_⟩
      intro _
      split
      · next heq => nomatch congrArg Prod.snd heq
      · next heq => exact absurd (congrArg Prod.fst heq) hname
      · rfl

/-- What a text is cut into. -/
theorem pairOf_of_isPair (h : IsPair text p) : Invocation.pairOf text = p := by
  obtain ⟨rfl, -, hfirst⟩ := h
  rw [Invocation.pairOf, cutAtEquals_append hfirst]
  rfl

end Cut

/-! ### What is settled -/

namespace CommandLine

variable {g : Globals}

namespace Level

variable {l l' : Level} {o : OptionSpec} {value : Option String} {text : String}

/-- Do all options that have been settled have values that are allowed for them? -/
def Valid (l : Level) : Prop :=
  ∀ given ∈ l.given, given.2 = [] ∨ ∃ text, valuesOf given.1 text = .ok given.2

theorem Valid.opened (spec : CommandSpec) (path : List String) : Valid { spec, path } := nofun

/-- The values of an option are looked at before it is settled. -/
theorem valid_settle (hl : l.Valid) (h : l.settle o value = .ok l') : l'.Valid := by
  have hgiven (values : List String)
      (hvalues : values = [] ∨ ∃ text, valuesOf o text = .ok values) :
      Valid { l with given := l.given ++ [(o, values)] } := by
    intro given hmem
    rcases List.mem_append.mp hmem with hmem | hmem
    · exact hl given hmem
    · obtain rfl := List.mem_singleton.mp hmem
      exact hvalues
  unfold settle at h
  split at h
  · cases h
  · split at h
    · cases h
    · split at h
      · split at h
        · cases h
        · split at h
          · cases h
          · cases h
            exact hgiven [] (.inl rfl)
      · split at h
        · cases h
        · next text _ =>
          obtain ⟨values, hvalues, h⟩ := ok_bind_iff.mp h
          cases h
          exact hgiven values (.inr ⟨text, hvalues⟩)

theorem valid_settlePending (hl : l.Valid) (h : l.settlePending = .ok l') : l'.Valid := by
  unfold settlePending at h
  split at h
  · cases h
    exact hl
  · have hnone : Valid { l with pending := none } := hl
    exact valid_settle hnone h

theorem valid_takeWith (hl : l.Valid) (h : l.takeWith o text = .ok l') : l'.Valid := by
  obtain ⟨next, hpending, h⟩ := ok_bind_iff.mp h
  obtain ⟨settled, hsettle, h⟩ := ok_bind_iff.mp h
  cases h
  have hsettled : settled.Valid := valid_settle (valid_settlePending hl hpending) hsettle
  exact hsettled

theorem valid_take (hl : l.Valid) (h : l.take o = .ok l') : l'.Valid := by
  obtain ⟨next, hpending, h⟩ := ok_bind_iff.mp h
  have hnext := valid_settlePending hl hpending
  split at h
  · cases h
    exact hnext
  · obtain ⟨settled, hsettle, h⟩ := ok_bind_iff.mp h
    cases h
    have hsettled : settled.Valid := valid_settle hnext hsettle
    exact hsettled

theorem valid_long {body : String} (hl : l.Valid) (h : l.long g body = .ok l') : l'.Valid := by
  unfold long at h
  dsimp only at h
  split at h
  · nomatch h
  · exact valid_take hl h
  · split at h
    · exact valid_takeWith hl h
    · nomatch h

theorem valid_letters {cs : List Char} (hl : l.Valid) (h : l.letters g cs = .ok l') :
    l'.Valid := by
  induction cs generalizing l with
  | nil =>
    cases h
    exact hl
  | cons c cs ih =>
    unfold letters at h
    split at h
    · nomatch h
    · split at h
      · split at h
        · exact valid_take hl h
        · exact valid_takeWith hl h
        · exact valid_takeWith hl h
      · obtain ⟨next, htake, h⟩ := ok_bind_iff.mp h
        exact ih (valid_take hl htake) h

theorem valid_operand (hl : l.Valid) (h : l.operand text = .ok l') : l'.Valid := by
  unfold operand at h
  split at h
  · obtain ⟨next, hpending, h⟩ := ok_bind_iff.mp h
    cases h
    have hnext := valid_settlePending hl hpending
    exact hnext
  · split at h
    · nomatch h
    · split at h <;> nomatch h

theorem valid_argument (hl : l.Valid) (h : l.argument g text = .ok l') : l'.Valid := by
  rw [argument_eq] at h
  split at h
  · exact valid_operand hl h
  · split at h
    · cases h
      exact hl
    · exact valid_long hl h
    · exact valid_letters hl h
    · split at h
      · cases h
        exact hl
      · exact valid_operand hl h

/-- Closing a level settles its last option, and no other one. -/
theorem valid_close {inner : Bool} (hl : l.Valid) (h : l.close g inner = .ok l') : l'.Valid := by
  obtain ⟨next, hpending, h⟩ := ok_bind_iff.mp h
  have hnext := valid_settlePending hl hpending
  dsimp only [bind, Except.bind, throw, throwThe, MonadExceptOf.throw, pure, Except.pure] at h
  split at h
  · split at h <;> nomatch h
  · split at h
    · nomatch h
    · split at h
      · cases h
        exact hnext
      · nomatch h

theorem valid_close_outer {outer closed : List Level} (houter : ∀ m ∈ outer, m.Valid)
    (h : outer.mapM (close g true) = .ok closed) : ∀ m ∈ closed, m.Valid := by
  intro m hm
  obtain ⟨before, hbefore, hclose⟩ := exists_of_mapM_ok h m hm
  exact valid_close (houter before hbefore) hclose

end Level

namespace State

variable {s s' : State} {arguments : List String} {levels : List Level}

/-- Are all levels that have been opened valid? -/
def Valid : State → Prop
  | reading outer l => l.Valid ∧ ∀ m ∈ outer, m.Valid
  | helping _ => True

theorem valid_step {text : String} (hs : s.Valid) (h : s.step g text = .ok s') : s'.Valid := by
  cases s with
  | helping c =>
    change helpOn c text = .ok s' at h
    unfold helpOn at h
    split at h
    · cases h
      trivial
    · split at h
      · cases h
        trivial
      · nomatch h
  | reading outer l =>
    obtain ⟨hl, houter⟩ := hs
    obtain ⟨-, -, -, -, -, rfl⟩ | ⟨inner, -, -, -, rfl⟩ | ⟨next, rfl, hargument⟩ := step_cases h
    · trivial
    · exact ⟨.opened _ _, List.forall_mem_cons.mpr ⟨hl, houter⟩⟩
    · exact ⟨Level.valid_argument hl hargument, houter⟩

/-- However much of a line is read, what is settled has been checked. -/
theorem valid_fold (hs : s.Valid) (h : arguments.foldlM (fun s a => s.step g a) s = .ok s') :
    s'.Valid := by
  induction arguments generalizing s with
  | nil =>
    cases h
    exact hs
  | cons text arguments ih =>
    rw [List.foldlM_cons] at h
    obtain ⟨next, hstep, h⟩ := ok_bind_iff.mp h
    exact ih (valid_step hs hstep) h

theorem valid_close (hs : s.Valid) (h : s.close g = .ok levels) : ∀ m ∈ levels, m.Valid := by
  cases s with
  | helping => nomatch h
  | reading outer l =>
    obtain ⟨hl, houter⟩ := hs
    obtain ⟨l', hclose, h⟩ := ok_bind_iff.mp h
    obtain ⟨closed, hclosed, h⟩ := ok_bind_iff.mp h
    cases h
    intro m hm
    rcases List.mem_cons.mp (List.mem_reverse.mp hm) with rfl | hm
    · exact Level.valid_close hl hclose
    · exact Level.valid_close_outer houter hclosed m hm

end State

/-- The levels of a line that is understood hold nothing that is not allowed. -/
theorem valid_of_read {root : CommandSpec} {arguments : List String} {levels : List Level}
    (h : read root g arguments = .ok levels) : ∀ m ∈ levels, m.Valid := by
  obtain ⟨final, hfold, hclose⟩ := ok_bind_iff.mp h
  have hstart : State.Valid (.reading [] { spec := root, path := [root.name] }) :=
    ⟨.opened _ _, nofun⟩
  exact State.valid_close (State.valid_fold hstart hfold) hclose

end CommandLine

/-! ### Lines -/

namespace Invocation

variable {server project : Option String} {arguments : List String} {i : Invocation}

theorem valuesOf_paramOption {text : String} {values : List String}
    (h : Level.valuesOf paramOption text = .ok values) :
    values = [text] ∧ ∃ p, IsPair text p := by
  unfold Level.valuesOf at h
  dsimp only [paramOption] at h
  split at h
  · nomatch h
  · next hnone =>
    cases h
    exact ⟨rfl, pairFault?_eq_none_iff.mp hnone⟩

/-- On a line that is understood, all texts that have to be pairs are pairs. -/
theorem isPair_of_read (h : read server project arguments = .ok i) {text : String}
    (htext : text ∈ (line arguments).values paramOption) : ∃ p, IsPair text p := by
  obtain ⟨levels, hlevels, -⟩ := ok_bind_iff.mp h
  have hvalid := valid_of_read hlevels
  have hglobals : ∀ o ∈ globalOptions ++ [helpOption, versionOption], o ∈ knownOptions := by decide
  obtain ⟨outer, l, rfl, hholds⟩ := read_ok covers_knownOptions hglobals sound_program hlevels
  have hlists : Lists knownOptions (line arguments) paramOption :=
    lists_knownOptions (by decide) arguments
  obtain ⟨given, hgiven, hvalue⟩ := List.mem_filterMap.mp htext
  obtain ⟨o, value⟩ := given
  obtain rfl : o = paramOption := hlists.eq_of_long hgiven
  obtain rfl : value = some text := hvalue
  have hsettled : (paramOption, [text]) ∈ (outer ++ [l]).flatMap Level.given := by
    rw [hholds.given]
    exact List.mem_map_of_mem (List.mem_filter.mp hgiven).1
  obtain ⟨m, hm, hmem⟩ := List.mem_flatMap.mp hsettled
  rcases hvalid m hm _ hmem with hnil | ⟨text', hvalues⟩
  · nomatch hnil
  · obtain ⟨hsame, hpair⟩ := valuesOf_paramOption hvalues
    obtain rfl : text = text' := List.singleton_inj.mp hsame
    exact hpair

end Invocation
end CodeQuality
