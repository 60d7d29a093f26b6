import CodeQuality.Proofs.CommandLine.Line
import CodeQuality.Proofs.Steps

/-!
# Reading a command

While the arguments of one command are read, its level holds the options and operands that the line
has for it, the option that came last being settled only later.
-/

namespace CodeQuality
namespace CommandLine

/-- The values that a text stands for behind an option. -/
def OptionSpec.textsOf (o : OptionSpec) (text : String) : List String :=
  match o.kind with
  | .switch => []
  | .single _ | .pair _ => [text]
  | .list _ => (Text.split ',' text.toList).map String.ofList

theorem textsOf_of_ok {o : OptionSpec} {text : String} {values : List String}
    (h : Level.valuesOf o text = .ok values) : values = o.textsOf text := by
  unfold Level.valuesOf at h
  unfold OptionSpec.textsOf
  cases hkind : o.kind with
  | switch | single | list => rw [hkind] at h; exact (Except.ok.inj h).symm
  | pair =>
    rw [hkind] at h
    dsimp only at h
    split at h
    · nomatch h
    · exact (Except.ok.inj h).symm

/-- An option as it is settled. -/
def settledOf : OptionSpec × Option String → OptionSpec × List String
  | (o, none) => (o, [])
  | (o, some text) => (o, o.textsOf text)

namespace Shape

theorem ofChars_letters {c : Char} {cs : List Char} (h : c ≠ '-') :
    ofChars ('-' :: c :: cs) = letters (c :: cs) := by
  unfold ofChars
  split
  · next heq => cases heq; exact absurd rfl h
  · next heq => cases heq; exact absurd rfl h
  · next heq => cases heq; rfl
  · next hletters => exact absurd rfl (hletters _ _)

theorem ofChars_plain {cs : List Char} (hhyphens : cs ≠ ['-', '-'])
    (hlong : ∀ body, cs ≠ '-' :: '-' :: body) (hletters : ∀ c rest, cs ≠ '-' :: c :: rest) :
    ofChars cs = plain := by
  unfold ofChars
  split
  · exact absurd rfl hhyphens
  · exact absurd rfl (hlong _)
  · exact absurd rfl (hletters _ _)
  · rfl

end Shape

@[simp] theorem settledOf_fst (given : OptionSpec × Option String) :
    (settledOf given).1 = given.1 := by
  obtain ⟨o, value⟩ := given
  cases value <;> rfl

namespace Level

variable {g : Globals} {l l' : Level} {o : OptionSpec} {value : Option String}

/-- The option that came last, if its value has come too. -/
def last (l : Level) : List (OptionSpec × Option String) :=
  l.pending.toList.filter fun given => given.2.isSome

/-- The options that have come so far. -/
def all (l : Level) : List (OptionSpec × List String) := l.given ++ l.last.map settledOf

/-- An option that is given once does not come again. -/
def Once (given : List (OptionSpec × List String)) : Prop :=
  given.Pairwise fun earlier later => later.1.isRepeatable = false → earlier.1.long ≠ later.1.long

/-- What holds of a level while arguments are read: the option that came last waits for its value
exactly if the next argument may be it. -/
structure Live (g : Globals) (l : Level) : Prop where
  waiting : l.awaiting = true →
    l.onlyOperands = false ∧ ∃ o, o.takesValue = true ∧ l.pending = some (o, none)
  ready : l.awaiting = false → ∀ o, l.pending ≠ some (o, none)
  known : ∀ given ∈ l.given, given.1 ∈ l.options g
  knownLast : ∀ given, l.pending = some given → given.1 ∈ l.options g
  once : Once l.given

/-- Nothing has come to a level that has just been opened. -/
theorem Live.opened (spec : CommandSpec) (path : List String) : Live g { spec, path } :=
  ⟨nofun, fun _ _ => nofun, nofun, nofun, .nil⟩

/-- What the next argument can be. -/
def mode (l : Level) : Mode :=
  if l.onlyOperands then .word
  else
    match l.awaiting, l.pending with
    | true, some (o, _) => .awaiting o
    | _, _ => .any

theorem has_eq_false_iff {long : String} :
    l.has long = false ↔ ∀ given ∈ l.given, given.1.long ≠ long := by
  simp [has]

/-! ### Settling options -/

/-- An option that is settled comes behind those that have been, with its values. -/
theorem settle_ok (h : l.settle o value = .ok l') :
    l' = { l with given := l.given ++ [settledOf (o, value)] } ∧
      (o.isRepeatable = false → l.has o.long = false) ∧
        (value = none → o.takesValue = false) := by
  unfold settle at h
  split at h
  · nomatch h
  · split at h
    · nomatch h
    · split at h
      · split at h
        · nomatch h
        · next htakes =>
          split at h
          · nomatch h
          · next hhas =>
            cases h
            exact ⟨rfl, fun _ => by simpa using hhas, fun _ => by simpa using htakes⟩
      · next value =>
        split at h
        · nomatch h
        · next hrepeated =>
          obtain ⟨values, hvalues, h⟩ := ok_bind_iff.mp h
          cases h
          refine ⟨?_, ?_, nofun⟩
          · rw [settledOf, textsOf_of_ok hvalues]
          · intro hone
            simpa [hone] using hrepeated

theorem once_settle (h : l.settle o value = .ok l') (honce : Once l.given) : Once l'.given := by
  obtain ⟨rfl, hfirst, -⟩ := settle_ok h
  refine List.pairwise_append.mpr ⟨honce, List.pairwise_singleton _ _, ?_⟩
  intro earlier hearlier later hlater hrepeatable
  obtain rfl := List.mem_singleton.mp hlater
  rw [settledOf_fst] at hrepeatable ⊢
  exact has_eq_false_iff.mp (hfirst hrepeatable) earlier hearlier

theorem all_of_settled (h : ∀ given, l.pending = some given → given.2 = none) :
    l.all = l.given := by
  unfold all last
  cases hpending : l.pending with
  | none => simp
  | some given => simp [h given hpending]

/-- Only an option that takes a value is waited for. -/
theorem Live.awaiting_eq_false (hlive : l.Live g)
    (h : ∀ o, l.pending = some (o, none) → o.takesValue = false) : l.awaiting = false := by
  cases hawaiting : l.awaiting with
  | false => rfl
  | true =>
    obtain ⟨-, o, htakes, hpending⟩ := hlive.waiting hawaiting
    rw [h o hpending] at htakes
    nomatch htakes

/-- Settling the option that came last leaves the options that have come. -/
theorem settlePending_ok (hlive : l.Live g) (h : l.settlePending = .ok l') :
    l' = { l with given := l.all, pending := none } ∧ l.awaiting = false ∧ Once l.all ∧
      ∀ given ∈ l.all, given.1 ∈ l.options g := by
  unfold settlePending at h
  split at h
  · next hpending =>
    cases h
    have hall : l.all = l.given := all_of_settled (by rw [hpending]; nofun)
    refine ⟨?_, ?_, hall ▸ hlive.once, hall ▸ hlive.known⟩
    · rw [hall, ← hpending]
    · exact hlive.awaiting_eq_false (by rw [hpending]; nofun)
  · next o value hpending =>
    have honce := once_settle h hlive.once
    obtain ⟨rfl, -, hnone⟩ := settle_ok h
    have hawaiting : l.awaiting = false := by
      apply hlive.awaiting_eq_false
      intro o' hpending'
      cases hpending.symm.trans hpending'
      exact hnone rfl
    obtain ⟨value, rfl⟩ : ∃ text, value = some text := by
      cases value with
      | none => exact absurd hpending (hlive.ready hawaiting o)
      | some text => exact ⟨text, rfl⟩
    have hall : l.all = l.given ++ [settledOf (o, some value)] := by
      simp [all, last, hpending]
    refine ⟨by rw [hall], hawaiting, by rw [hall]; exact honce, ?_⟩
    intro given hgiven
    rw [hall] at hgiven
    rcases List.mem_append.mp hgiven with hgiven | hgiven
    · exact hlive.known given hgiven
    · obtain rfl := List.mem_singleton.mp hgiven
      exact hlive.knownLast _ hpending

/-! ### One argument -/

/-- Has `l` become `l'` by these items, so that the next argument can be what `mode` says? -/
structure Follows (g : Globals) (l : Level) (items : List Item) (mode : Mode) (l' : Level) :
    Prop where
  live : l'.Live g
  spec : l'.spec = l.spec
  path : l'.path = l.path
  operands : l'.operands = l.operands ++ items.filterMap Item.word?
  all : l'.all = l.all ++ (items.filterMap Item.option?).map settledOf
  mode : l'.mode = mode
  /-- words are operands, and only commands that take some have them -/
  room : items.filterMap Item.word? ≠ [] → l.spec.operands ≠ []

theorem Follows.trans {l'' : Level} {items more : List Item} {mode mode' : Mode}
    (h : Follows g l items mode l') (h' : Follows g l' more mode' l'') :
    Follows g l (items ++ more) mode' l'' where
  live := h'.live
  spec := h'.spec.trans h.spec
  path := h'.path.trans h.path
  operands := by rw [h'.operands, h.operands]; simp
  all := by rw [h'.all, h.all]; simp
  mode := h'.mode
  room := by
    intro hwords
    rw [List.filterMap_append] at hwords
    by_cases hitems : items.filterMap Item.word? = []
    · rw [hitems, List.nil_append] at hwords
      rw [← h.spec]
      exact h'.room hwords
    · exact h.room hitems

/-- Nothing but settled options is left when an option has come that is settled at once. -/
theorem settle_settlePending (hlive : l.Live g) (ho : o ∈ l.options g) {next : Level}
    (hpending : l.settlePending = .ok next) (h : next.settle o value = .ok l') :
    l' = { l with given := l.all ++ [settledOf (o, value)], pending := none } ∧
      Once l'.given ∧ (∀ given ∈ l'.given, given.1 ∈ l'.options g) ∧
        (value = none → o.takesValue = false) := by
  obtain ⟨rfl, -, honce, hknown⟩ := settlePending_ok hlive hpending
  have honce := once_settle h honce
  obtain ⟨rfl, -, hnone⟩ := settle_ok h
  refine ⟨rfl, honce, ?_, hnone⟩
  intro given hgiven
  rcases List.mem_append.mp hgiven with hgiven | hgiven
  · exact hknown given hgiven
  · obtain rfl := List.mem_singleton.mp hgiven
    rw [settledOf_fst]
    exact ho

theorem follows_settle (hlive : l.Live g) (ho : o ∈ l.options g) (honly : l.onlyOperands = false)
    {next settled : Level} (hpending : l.settlePending = .ok next)
    (h : next.settle o value = .ok settled) :
    Follows g l [.option o value] .any { settled with awaiting := false } := by
  obtain ⟨rfl, honce, hknown, -⟩ := settle_settlePending hlive ho hpending h
  exact
    { live := ⟨nofun, fun _ _ => nofun, hknown, nofun, honce⟩
      spec := rfl
      path := rfl
      operands := by simp [Item.word?]
      all := by simp [all, last, Item.option?]
      mode := by simp [mode, honly]
      room := by simp [Item.word?] }

/-- An option with its value. -/
theorem takeWith_ok {text : String} (hlive : l.Live g) (ho : o ∈ l.options g)
    (honly : l.onlyOperands = false) (h : l.takeWith o text = .ok l') :
    Follows g l [.option o (some text)] .any l' := by
  obtain ⟨next, hpending, h⟩ := ok_bind_iff.mp h
  obtain ⟨settled, hsettle, h⟩ := ok_bind_iff.mp h
  cases h
  exact follows_settle hlive ho honly hpending hsettle

/-- An option without a value is settled, or it waits for one. -/
theorem take_ok (hlive : l.Live g) (ho : o ∈ l.options g) (honly : l.onlyOperands = false)
    (h : l.take o = .ok l') :
    if o.takesValue then Follows g l [] (.awaiting o) l'
    else Follows g l [.option o none] .any l' := by
  obtain ⟨next, hpending, h⟩ := ok_bind_iff.mp h
  split
  · next htakes =>
    rw [if_pos htakes] at h
    cases h
    obtain ⟨rfl, -, honce, hknown⟩ := settlePending_ok hlive hpending
    exact
      { live := ⟨fun _ => ⟨honly, o, htakes, rfl⟩, nofun, hknown, by rintro _ ⟨⟩; exact ho, honce⟩
        spec := rfl
        path := rfl
        operands := by simp
        all := by simp [all, last]
        mode := by simp [mode, honly]
        room := by simp }
  · next htakes =>
    rw [if_neg htakes] at h
    obtain ⟨settled, hsettle, h⟩ := ok_bind_iff.mp h
    cases h
    exact follows_settle hlive ho honly hpending hsettle

/-- Are the options found in the table, by their long names and by their letters? -/
structure Covers (table options : List OptionSpec) : Prop where
  long : ∀ o ∈ options, table.find? (·.long = o.long) = some o
  letter : ∀ o ∈ options, ∀ c, o.letter? = some c → table.find? (·.letter? = some c) = some o

variable {table : List OptionSpec}

theorem long_ok {body : String} (htable : Covers table (l.options g)) (hlive : l.Live g)
    (honly : l.onlyOperands = false) (h : l.long g body = .ok l') :
    Follows g l (Mode.long table body).1 (Mode.long table body).2 l' := by
  unfold long at h
  unfold Mode.long
  generalize cutAtEquals body = cut at h ⊢
  obtain ⟨name, value⟩ := cut
  dsimp only at h ⊢
  cases hfind : (l.options g).find? (·.long = name) with
  | none =>
    rw [hfind] at h
    nomatch h
  | some o =>
    have ho := List.mem_of_find?_eq_some hfind
    have hname : o.long = name := by simpa using List.find?_some hfind
    rw [hfind] at h
    rw [← hname, htable.long o ho]
    cases value with
    | none =>
      have htaken := take_ok hlive ho honly h
      dsimp only
      split
      · next htakes => rwa [if_pos htakes] at htaken
      · next htakes => rwa [if_neg htakes] at htaken
    | some text =>
      dsimp only at h
      split at h
      · exact takeWith_ok hlive ho honly h
      · nomatch h

theorem onlyOperands_of_mode (h : l.mode = .any) : l.onlyOperands = false := by
  unfold mode at h
  split at h
  · nomatch h
  · next honly => simpa using honly

theorem letters_ok {cs : List Char} (htable : Covers table (l.options g)) (hlive : l.Live g)
    (honly : l.onlyOperands = false) (hcs : cs = [] → l.mode = .any) (h : l.letters g cs = .ok l') :
    Follows g l (Mode.letters table cs).1 (Mode.letters table cs).2 l' := by
  induction cs generalizing l with
  | nil =>
    cases h
    exact ⟨hlive, rfl, rfl, by simp [Mode.letters], by simp [Mode.letters], hcs rfl,
      by simp [Mode.letters]⟩
  | cons c cs ih =>
    unfold letters at h
    unfold Mode.letters
    cases hfind : (l.options g).find? (·.letter? = some c) with
    | none =>
      rw [hfind] at h
      nomatch h
    | some o =>
      have ho := List.mem_of_find?_eq_some hfind
      have hletter : o.letter? = some c := by simpa using List.find?_some hfind
      rw [hfind] at h
      rw [htable.letter o ho c hletter]
      dsimp only at h ⊢
      cases htakes : o.takesValue with
      | true =>
        rw [htakes, if_pos rfl] at h
        rw [if_pos rfl]
        split at h
        · have htaken := take_ok hlive ho honly h
          rwa [htakes, if_pos rfl] at htaken
        · exact takeWith_ok hlive ho honly h
        · next hne hequals =>
          rw [List.isEmpty_eq_false_iff.mpr hne, Mode.attached_of_ne hequals]
          exact takeWith_ok hlive ho honly h
      | false =>
        rw [htakes, if_neg Bool.false_ne_true] at h
        rw [if_neg Bool.false_ne_true]
        obtain ⟨next, htake, h⟩ := ok_bind_iff.mp h
        have htaken := take_ok hlive ho honly htake
        rw [htakes, if_neg Bool.false_ne_true] at htaken
        have htable' : Covers table (next.options g) := by
          rw [options, htaken.spec]
          exact htable
        exact htaken.trans (ih htable' htaken.live (onlyOperands_of_mode htaken.mode)
          (fun _ => htaken.mode) h)

/-- Has an option come that can no longer have its value? -/
def Doomed (l : Level) : Prop :=
  l.onlyOperands = true ∧ ∃ o, o.takesValue = true ∧ l.pending = some (o, none)

theorem settlePending_of_doomed (h : l.Doomed) : ∃ e, l.settlePending = .error e := by
  obtain ⟨-, o, htakes, hpending⟩ := h
  unfold settlePending settle
  rw [hpending]
  dsimp only
  split
  · exact ⟨_, rfl⟩
  · split
    · exact ⟨_, rfl⟩
    · exact ⟨.missingValue o, rfl⟩

theorem operand_ok {text : String} (hlive : l.Live g) (h : l.operand text = .ok l') :
    Follows g l [.word text] (if l.onlyOperands then .word else .any) l' := by
  unfold operand at h
  split at h
  · next hroom =>
    obtain ⟨next, hpending, h⟩ := ok_bind_iff.mp h
    cases h
    obtain ⟨rfl, -, honce, hknown⟩ := settlePending_ok hlive hpending
    exact
      { live := ⟨nofun, fun _ _ => nofun, hknown, nofun, honce⟩
        spec := rfl
        path := rfl
        operands := by simp [Item.word?]
        all := by simp [all, last, Item.option?]
        mode := by simp [mode]
        room := fun _ => List.ne_nil_of_length_pos (Nat.zero_lt_of_lt hroom) }
  · split at h
    · nomatch h
    · split at h <;> nomatch h

theorem argument_eq (g : Globals) (l : Level) (text : String) :
    l.argument g text =
      if l.onlyOperands then l.operand text
      else
        match Shape.of text with
        | .hyphens => .ok { l with onlyOperands := true, awaiting := false }
        | .long body => l.long g body
        | .letters cs => l.letters g cs
        | .plain =>
          match l.awaiting, l.pending with
          | true, some (o, _) => .ok { l with pending := some (o, some text), awaiting := false }
          | _, _ => l.operand text := by
  unfold Level.argument Shape.of
  generalize text.toList = cs
  split
  · rfl
  · split
    · rfl
    · next body hne =>
      cases body with
      | nil => exact absurd rfl hne
      | cons => rfl
    · next c cs hne hlong =>
      rw [Shape.ofChars_letters hlong]
    · next hhyphens hlong hletters =>
      have hplain := Shape.ofChars_plain hhyphens hlong hletters
      generalize Shape.ofChars cs = shape at hplain ⊢
      cases hplain
      rfl

theorem ne_nil_of_letters {text : String} {cs : List Char} (h : Shape.of text = .letters cs) :
    cs ≠ [] := by
  unfold Shape.of Shape.ofChars at h
  split at h <;> cases h
  exact List.cons_ne_nil _ _

/-- Two hyphens, where no option waits for its value. -/
theorem follows_hyphens (hlive : l.Live g) (hawaiting : l.awaiting = false) :
    Follows g l [] .word { l with onlyOperands := true, awaiting := false } where
  live := ⟨nofun, fun _ => hlive.ready hawaiting, hlive.known, hlive.knownLast, hlive.once⟩
  spec := rfl
  path := rfl
  operands := by simp
  all := by simp [all, last]
  mode := by simp [mode]
  room := by simp

/-- The value that an option has waited for. -/
theorem follows_value (text : String) (hlive : l.Live g) (honly : l.onlyOperands = false)
    (hpending : l.pending = some (o, none)) :
    Follows g l [.option o (some text)] .any
      { l with pending := some (o, some text), awaiting := false } where
  live := by
    refine ⟨nofun, nofun, hlive.known, ?_, hlive.once⟩
    rintro _ ⟨⟩
    exact hlive.knownLast (o, none) hpending
  spec := rfl
  path := rfl
  operands := by simp [Item.word?]
  all := by
    have hall : l.all = l.given := by
      apply all_of_settled
      rw [hpending]
      rintro _ ⟨⟩
      rfl
    rw [hall]
    simp [all, last, Item.option?]
  mode := by simp [mode, honly]
  room := by simp [Item.word?]

/-- How an argument is read at a level that is not behind two hyphens. -/
theorem read_mode (honly : l.onlyOperands = false) (text : String) :
    l.mode.read table text =
      match Shape.of text with
      | .hyphens => ([], .word)
      | .long body => Mode.long table body
      | .letters cs => Mode.letters table cs
      | .plain =>
        match l.awaiting, l.pending with
        | true, some (o, _) => ([.option o (some text)], .any)
        | _, _ => ([.word text], .any) := by
  unfold mode
  rw [honly, if_neg Bool.false_ne_true]
  cases l.awaiting <;> cases l.pending <;> rfl

/-- An argument that names no command adds its items, unless it leaves an option without its
value. -/
theorem argument_ok {text : String} (htable : Covers table (l.options g)) (hlive : l.Live g)
    (h : l.argument g text = .ok l') :
    Follows g l (l.mode.read table text).1 (l.mode.read table text).2 l' ∨ l'.Doomed := by
  rw [argument_eq] at h
  cases honly : l.onlyOperands with
  | true =>
    have hmode : l.mode = .word := by rw [mode, honly]; rfl
    rw [honly, if_pos rfl] at h
    have hoperand := operand_ok hlive h
    rw [honly, if_pos rfl] at hoperand
    rw [hmode]
    exact .inl hoperand
  | false =>
    rw [if_neg (by rw [honly]; exact Bool.false_ne_true)] at h
    rw [read_mode honly]
    cases hshape : Shape.of text with
    | hyphens =>
      rw [hshape] at h
      cases h
      cases hawaiting : l.awaiting with
      | true => exact .inr ⟨rfl, (hlive.waiting hawaiting).2⟩
      | false => exact .inl (follows_hyphens hlive hawaiting)
    | long body =>
      rw [hshape] at h
      exact .inl (long_ok htable hlive honly h)
    | letters cs =>
      rw [hshape] at h
      have hne := ne_nil_of_letters hshape
      exact .inl (letters_ok htable hlive honly (fun hnil => absurd hnil hne) h)
    | plain =>
      rw [hshape] at h
      left
      dsimp only at h ⊢
      cases hawaiting : l.awaiting with
      | true =>
        obtain ⟨-, o, htakes, hpending⟩ := hlive.waiting hawaiting
        rw [hawaiting, hpending] at h
        rw [hpending]
        cases h
        exact follows_value text hlive honly hpending
      | false =>
        rw [hawaiting] at h
        have hoperand := operand_ok hlive h
        rw [honly, if_neg Bool.false_ne_true] at hoperand
        exact hoperand

end Level
end CommandLine
end CodeQuality
