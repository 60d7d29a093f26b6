import CodeQuality.Proofs.CommandLine.Level

/-!
# Reading a command line

The levels of a command line that is understood hold what stands on the line: the words lead from
command to command and the last of these has the operands, and the options are spread over the
levels in their order.

* `CommandSpec.Sound` — commands whose lines have one meaning.
* `State.Reaches` — what has been read of a line.
* `read_ok` — what the levels of a line hold.
-/

namespace CodeQuality
namespace CommandLine

variable {table : List OptionSpec} {g : Globals}

theorem Mode.read_any_of_plain {text : String} (h : Shape.of text = .plain) :
    Mode.any.read table text = ([.word text], .any) := by
  unfold Mode.read
  dsimp only
  rw [h]

/-- Where no option waits for its value, an argument without a hyphen is a word. -/
theorem Level.read_mode_of_plain {l : Level} {text : String} (honly : l.onlyOperands = false)
    (hawaiting : l.awaiting = false) (h : Shape.of text = .plain) :
    l.mode.read table text = ([.word text], .any) := by
  have hmode : l.mode = .any := by simp [mode, honly, hawaiting]
  rw [hmode, Mode.read_any_of_plain h]

theorem words_cons_word (text : String) (items : List Item) :
    (Item.word text :: items).filterMap Item.word? = text :: items.filterMap Item.word? := rfl

theorem options_cons_word (text : String) (items : List Item) :
    (Item.word text :: items).filterMap Item.option? = items.filterMap Item.option? := rfl

/-! ### Commands -/

/-- Are the options of a command in the table, is it either a command around others or one with
options and operands of its own, and can no name of a command inside it be taken for an option? -/
def CommandSpec.Fits (table : List OptionSpec) (c : CommandSpec) : Prop :=
  (∀ o ∈ c.options, o ∈ table) ∧ (c.commands.isEmpty = false → c.options = [] ∧ c.operands = []) ∧
    ∀ d ∈ c.commands, ∀ name ∈ d.name :: d.aliases, name.toList.head? ≠ some '-'

instance (table : List OptionSpec) (c : CommandSpec) : Decidable (c.Fits table) :=
  inferInstanceAs (Decidable (_ ∧ _ ∧ _))

/-- Do the command and all commands inside it fit? -/
inductive CommandSpec.Sound (table : List OptionSpec) : CommandSpec → Prop where
  | intro {c : CommandSpec} (fits : c.Fits table) (inner : ∀ d ∈ c.commands, d.Sound table) :
    Sound table c

namespace CommandSpec

variable {c d : CommandSpec} {word : String} {words : List String}

theorem Sound.fits (h : c.Sound table) : c.Fits table := by
  obtain ⟨fits, -⟩ := h
  exact fits

theorem Sound.inner (h : c.Sound table) (hd : d ∈ c.commands) : d.Sound table := by
  obtain ⟨-, inner⟩ := h
  exact inner d hd

theorem mem_of_find? (h : c.find? word = some d) : d ∈ c.commands := List.mem_of_find?_eq_some h

theorem find?_of_nil (h : c.commands = []) (word : String) : c.find? word = none := by
  rw [find?, h]
  rfl

theorem Sound.isPlain (hsound : c.Sound table) (h : c.find? word = some d) :
    Shape.of word = .plain := by
  have hname : word ∈ d.name :: d.aliases := by
    have hmatches := List.find?_some h
    simp only [Bool.or_eq_true, decide_eq_true_eq, List.contains_iff_mem] at hmatches
    rcases hmatches with rfl | hmatches
    · exact List.mem_cons_self
    · exact List.mem_cons_of_mem _ hmatches
  have hhead := hsound.fits.2.2 d (mem_of_find? h) word hname
  apply Shape.ofChars_plain
  · intro hchars; rw [hchars] at hhead; exact hhead rfl
  · intro body hchars; rw [hchars] at hhead; exact hhead rfl
  · intro c rest hchars; rw [hchars] at hhead; exact hhead rfl

/-- The innermost command that words lead to. -/
def leaf (c : CommandSpec) : List String → CommandSpec
  | [] => c
  | word :: words =>
    match c.find? word with
    | some inner => inner.leaf words
    | none => c

theorem resolve_cons_some (h : c.find? word = some d) :
    c.resolve (word :: words) = (d.name :: (d.resolve words).1, (d.resolve words).2) := by
  rw [resolve, h]

theorem leaf_cons_some (h : c.find? word = some d) : c.leaf (word :: words) = d.leaf words := by
  rw [leaf, h]

/-- A command with no others inside has all words as its operands. -/
theorem resolve_of_nil (h : c.commands = []) (words : List String) :
    c.resolve words = ([], words) ∧ c.leaf words = c := by
  cases words with
  | nil => exact ⟨rfl, rfl⟩
  | cons word words => rw [resolve, leaf, find?_of_nil h]; exact ⟨rfl, rfl⟩

/-- Words that name no command come before the operands. -/
theorem resolve_append {front : List String} (h : c.commands = [] ∨ front = [])
    (words : List String) :
    c.resolve (front ++ words) = ((c.resolve words).1, front ++ (c.resolve words).2) ∧
      c.leaf (front ++ words) = c.leaf words := by
  rcases h with h | rfl
  · obtain ⟨hresolve, hleaf⟩ := resolve_of_nil h words
    obtain ⟨hresolve', hleaf'⟩ := resolve_of_nil h (front ++ words)
    rw [hresolve', hleaf', hresolve, hleaf]
    exact ⟨rfl, rfl⟩
  · exact ⟨rfl, rfl⟩

end CommandSpec

/-! ### Arguments -/

namespace State

variable {outer : List Level} {l l' : Level} {s final : State} {text : String}
  {arguments : List String} {levels : List Level}

/-- What has been read from `l` on: the levels around the last one, and that one. -/
structure Reaches (table : List OptionSpec) (g : Globals) (l : Level) (items : List Item)
    (around : List Level) (l' : Level) : Prop where
  live : l'.Live g
  outer : ∀ m ∈ around, m.Live g ∧ m.spec.commands ≠ [] ∧ m.spec.Sound table
  all : around.reverse.flatMap Level.all ++ l'.all =
    l.all ++ (items.filterMap Item.option?).map settledOf
  path : l'.path = l.path ++ (l.spec.resolve (items.filterMap Item.word?)).1
  operands : l'.operands = l.operands ++ (l.spec.resolve (items.filterMap Item.word?)).2
  spec : l'.spec = l.spec.leaf (items.filterMap Item.word?)

namespace Reaches

variable {next : Level} {inner : CommandSpec} {items later : List Item} {mode : Mode}
  {around : List Level}

theorem refl (hlive : l.Live g) : Reaches table g l [] [] l := by
  refine ⟨hlive, nofun, ?_, ?_, ?_, ?_⟩ <;> simp [CommandSpec.resolve, CommandSpec.leaf]

/-- What has been read inside a command has been read from the level around it, behind the name. -/
theorem inside (hlive : l.Live g) (hsound : l.spec.Sound table) (hoperands : l.operands = [])
    (hfind : l.spec.find? text = some inner)
    (h : Reaches table g { spec := inner, path := l.path ++ [inner.name] } items around l') :
    Reaches table g l (.word text :: items) (around ++ [l]) l' where
  live := h.live
  outer := by
    intro m hm
    rcases List.mem_append.mp hm with hm | hm
    · exact h.outer m hm
    · obtain rfl := List.mem_singleton.mp hm
      exact ⟨hlive, List.ne_nil_of_mem (CommandSpec.mem_of_find? hfind), hsound⟩
  all := by
    rw [options_cons_word, List.reverse_append, List.flatMap_append, List.append_assoc, h.all]
    simp [Level.all, Level.last]
  path := by
    rw [words_cons_word, h.path, CommandSpec.resolve_cons_some hfind]
    simp
  operands := by rw [words_cons_word, h.operands, CommandSpec.resolve_cons_some hfind, hoperands]
  spec := by rw [words_cons_word, h.spec, CommandSpec.leaf_cons_some hfind]

/-- What an argument adds comes before what is read after it. -/
theorem behind (hfollows : Level.Follows g l items mode next)
    (hwords : l.spec.commands = [] ∨ items.filterMap Item.word? = [])
    (h : Reaches table g next later around l') : Reaches table g l (items ++ later) around l' := by
  obtain ⟨hresolve, hleaf⟩ := CommandSpec.resolve_append hwords (later.filterMap Item.word?)
  rw [← List.filterMap_append] at hresolve hleaf
  constructor
  case live => exact h.live
  case outer => exact h.outer
  case all =>
    rw [h.all, hfollows.all]
    simp
  case path => rw [h.path, hfollows.path, hfollows.spec, hresolve]
  case operands => rw [h.operands, hfollows.operands, hfollows.spec, hresolve, List.append_assoc]
  case spec => rw [h.spec, hfollows.spec, hleaf]

end Reaches

/-- Help is never left. -/
theorem close_of_helping {c : CommandSpec}
    (h : arguments.foldlM (fun s a => s.step g a) (helping c) = .ok final) :
    final.close g ≠ .ok levels := by
  induction arguments generalizing c with
  | nil =>
    cases h
    nofun
  | cons text arguments ih =>
    rw [List.foldlM_cons] at h
    obtain ⟨s, hstep, h⟩ := ok_bind_iff.mp h
    obtain ⟨d, rfl⟩ : ∃ d, s = helping d := by
      change helpOn c text = .ok s at hstep
      unfold helpOn at hstep
      split at hstep
      · exact ⟨_, (Except.ok.inj hstep).symm⟩
      · split at hstep
        · exact ⟨_, (Except.ok.inj hstep).symm⟩
        · nomatch hstep
    exact ih h

/-- An argument asks for help, or it opens the level of a command inside, or it belongs to the level
that is open. -/
theorem step_cases (h : (reading outer l).step g text = .ok s) :
    (text = "help" ∧ l.spec.find? text = none ∧ l.spec.commands ≠ [] ∧ l.onlyOperands = false ∧
        l.awaiting = false ∧ s = helping l.spec) ∨
      (∃ inner, l.spec.find? text = some inner ∧ l.onlyOperands = false ∧ l.awaiting = false ∧
        s = reading (l :: outer) { spec := inner, path := l.path ++ [inner.name] }) ∨
      ∃ l', s = reading outer l' ∧ l.argument g text = .ok l' := by
  unfold step at h
  dsimp only at h
  split at h
  · next inner hnamed =>
    cases h
    right; left
    split at hnamed
    · nomatch hnamed
    · next hplain =>
      simp only [Bool.or_eq_true, not_or, Bool.not_eq_true] at hplain
      exact ⟨inner, hnamed, hplain.1, hplain.2, rfl⟩
  · next hnamed =>
    split at h
    · next hhelp =>
      cases h
      simp only [Bool.and_eq_true, Bool.not_eq_true', decide_eq_true_eq] at hhelp
      obtain ⟨⟨⟨htext, honly⟩, hawaiting⟩, hcommands⟩ := hhelp
      rw [honly, hawaiting] at hnamed
      left
      exact ⟨htext, hnamed, List.isEmpty_eq_false_iff.mp hcommands, honly, hawaiting, rfl⟩
    · cases hargument : l.argument g text with
      | error e => rw [hargument] at h; nomatch h
      | ok l' =>
        rw [hargument] at h
        cases h
        exact .inr (.inr ⟨l', rfl, rfl⟩)

/-- An option that can no longer have its value is a fault in the end. -/
theorem close_of_doomed (hdoomed : l.Doomed)
    (h : arguments.foldlM (fun s a => s.step g a) (reading outer l) = .ok final) :
    final.close g ≠ .ok levels := by
  obtain ⟨e, he⟩ := Level.settlePending_of_doomed hdoomed
  cases arguments with
  | nil =>
    cases h
    intro hclose
    obtain ⟨l', hl, -⟩ := ok_bind_iff.mp hclose
    obtain ⟨l'', hsettled, -⟩ := ok_bind_iff.mp hl
    rw [he] at hsettled
    nomatch hsettled
  | cons text arguments =>
    rw [List.foldlM_cons] at h
    obtain ⟨s, hstep, -⟩ := ok_bind_iff.mp h
    exfalso
    -- All arguments are operands by now, and an operand settles the option first.
    have hoperand : ∃ e, l.argument g text = .error e := by
      rw [Level.argument_eq, hdoomed.1, if_pos rfl]
      unfold Level.operand
      split
      · exact ⟨e, by rw [he]; rfl⟩
      · split
        · exact ⟨_, rfl⟩
        · split <;> exact ⟨_, rfl⟩
    obtain ⟨e, hoperand⟩ := hoperand
    obtain ⟨-, -, -, honly, -⟩ | ⟨_, -, honly, -⟩ | ⟨l', -, hargument⟩ := step_cases hstep
    · nomatch hdoomed.1.symm.trans honly
    · nomatch hdoomed.1.symm.trans honly
    · nomatch hoperand.symm.trans hargument

/-- Only a command without others inside it takes words as its operands. -/
theorem words_of_follows {next : Level} {items : List Item} {mode : Mode}
    (hsound : l.spec.Sound table) (hfollows : Level.Follows g l items mode next)
    (h : l.spec.commands ≠ []) : items.filterMap Item.word? = [] := by
  cases hwords : items.filterMap Item.word? with
  | nil => rfl
  | cons =>
    have hfits := hsound.fits.2.1 (List.isEmpty_eq_false_iff.mpr h)
    exact absurd hfits.2 (hfollows.room (by rw [hwords]; exact List.cons_ne_nil _ _))

/-- What is read of a line until its end. -/
theorem reaches_of_fold
    (hcovers : ∀ l : Level, l.spec.Sound table → Level.Covers table (l.options g))
    (hlive : l.Live g) (hsound : l.spec.Sound table)
    (hops : l.spec.commands ≠ [] → l.operands = [])
    (h : arguments.foldlM (fun s a => s.step g a) (reading outer l) = .ok final)
    (hclose : final.close g = .ok levels) :
    ∃ around l', final = reading (around ++ outer) l' ∧
      Reaches table g l (l.mode.items table arguments) around l' := by
  induction arguments generalizing outer l with
  | nil =>
    cases h
    exact ⟨[], l, rfl, .refl hlive⟩
  | cons text arguments ih =>
    rw [List.foldlM_cons] at h
    obtain ⟨s, hstep, h⟩ := ok_bind_iff.mp h
    obtain ⟨-, -, -, -, -, rfl⟩ | ⟨inner, hfind, honly, hawaiting, rfl⟩ | ⟨next, rfl, hargument⟩ :=
      step_cases hstep
    · exact absurd hclose (close_of_helping h)
    · have hinner := CommandSpec.mem_of_find? hfind
      have hopened : Level.Live g { spec := inner, path := l.path ++ [inner.name] } := .opened _ _
      obtain ⟨around, l', rfl, hreaches⟩ := ih hopened (hsound.inner hinner) (fun _ => rfl) h
      have hitems : l.mode.items table (text :: arguments) =
          .word text :: Mode.any.items table arguments := by
        rw [Mode.items, Level.read_mode_of_plain honly hawaiting (hsound.isPlain hfind)]
        rfl
      rw [hitems]
      exact ⟨around ++ [l], l', by simp,
        hreaches.inside hlive hsound (hops (List.ne_nil_of_mem hinner)) hfind⟩
    · obtain hfollows | hdoomed := Level.argument_ok (hcovers l hsound) hlive hargument
      · have hnowords := words_of_follows hsound hfollows
        have hops' (h : next.spec.commands ≠ []) : next.operands = [] := by
          rw [hfollows.spec] at h
          rw [hfollows.operands, hops h, hnowords h]
          rfl
        obtain ⟨around, l', rfl, hreaches⟩ := ih hfollows.live (hfollows.spec ▸ hsound) hops' h
        have hwords := Decidable.or_iff_not_imp_left.mpr hnowords
        rw [Mode.items, ← hfollows.mode]
        exact ⟨around, l', rfl, hreaches.behind hfollows hwords⟩
      · exact absurd hclose (close_of_doomed hdoomed h)

end State

/-! ### The end of the line -/

namespace Level

variable {l l' : Level} {inner : Bool}

/-- A level when its last option has been settled. -/
def settled (l : Level) : Level := { l with given := l.all, pending := none }

/-- Closing a level settles its last option, and finds that nothing is missing or too much. -/
theorem close_ok (hlive : l.Live g) (h : l.close g inner = .ok l') :
    l' = l.settled ∧ Once l'.given ∧ (∀ given ∈ l'.given, given.1 ∈ l'.options g) ∧
      l'.clash? = none ∧ l'.isComplete = true ∧ (inner = false → l'.spec.commands = []) := by
  obtain ⟨next, hpending, h⟩ := ok_bind_iff.mp h
  obtain ⟨rfl, -, honce, hknown⟩ := settlePending_ok hlive hpending
  have hall : ({ l with given := l.all, pending := none } : Level) = l.settled := rfl
  rw [hall] at h
  dsimp only [bind, Except.bind, throw, throwThe, MonadExceptOf.throw, pure, Except.pure] at h
  cases hclash : l.settled.clash? with
  | some found =>
    rw [hclash] at h
    dsimp only at h
    split at h
    · split at h <;> nomatch h
    · nomatch h
  | none =>
    rw [hclash] at h
    dsimp only at h
    split at h
    · split at h <;> nomatch h
    · next hinner =>
      split at h
      · next hcomplete =>
        cases h
        refine ⟨rfl, honce, hknown, hclash, hcomplete, ?_⟩
        rintro rfl
        simpa using hinner
      · nomatch h

/-- Closing the levels around another one settles their last options. -/
theorem close_outer_ok {outer closed : List Level} (hlive : ∀ m ∈ outer, m.Live g)
    (h : outer.mapM (Level.close g true) = .ok closed) :
    closed = outer.map settled ∧
      ∀ m ∈ closed, Once m.given ∧ ∀ given ∈ m.given, given.1 ∈ m.options g := by
  constructor
  · refine eq_map_of_mapM_ok (fun m hm m' hclose => ?_) h
    exact (close_ok (hlive m hm) hclose).1
  · intro m hm
    obtain ⟨before, hbefore, hclose⟩ := exists_of_mapM_ok h m hm
    obtain ⟨rfl, honce, hknown, -⟩ := close_ok (hlive before hbefore) hclose
    exact ⟨honce, hknown⟩

end Level

/-! ### The whole line -/

/-- What the levels of a line are, where `line` is what stands on it. -/
structure Holds (g : Globals) (root : CommandSpec) (line : Line) (outer : List Level) (l : Level) :
    Prop where
  path : l.path = root.name :: (root.resolve line.words).1
  operands : l.operands = (root.resolve line.words).2
  spec : l.spec = root.leaf line.words
  given : (outer ++ [l]).flatMap Level.given = line.options.map settledOf
  once : ∀ m ∈ outer ++ [l], Level.Once m.given
  /-- only the innermost level has options that are not known to all commands -/
  outer : ∀ m ∈ outer, ∀ given ∈ m.given, given.1 ∈ g.options ++ [helpOption, versionOption]
  clash : l.clash? = none
  complete : l.isComplete = true
  leaf : l.spec.commands = []

/-- The options that a level knows are in the table of all options. -/
theorem Level.covers_options (l : Level) (hcovers : Level.Covers table table)
    (hglobals : ∀ o ∈ g.options ++ [helpOption, versionOption], o ∈ table)
    (hsound : l.spec.Sound table) : Level.Covers table (l.options g) := by
  have hknown : ∀ o ∈ l.options g, o ∈ table := by
    intro o ho
    unfold Level.options at ho
    rw [List.append_assoc] at ho
    rcases List.mem_append.mp ho with ho | ho
    · exact hsound.fits.1 o ho
    · exact hglobals o ho
  exact ⟨fun o ho => hcovers.long o (hknown o ho), fun o ho => hcovers.letter o (hknown o ho)⟩

/-- The levels of a line that is understood hold what stands on the line. -/
theorem read_ok {root : CommandSpec} {arguments : List String} {levels : List Level}
    (hcovers : Level.Covers table table)
    (hglobals : ∀ o ∈ g.options ++ [helpOption, versionOption], o ∈ table)
    (hsound : root.Sound table) (h : read root g arguments = .ok levels) :
    ∃ outer l, levels = outer ++ [l] ∧ Holds g root (.read table arguments) outer l := by
  have hcovers' (l : Level) (hsound : l.spec.Sound table) :=
    l.covers_options hcovers hglobals hsound
  obtain ⟨final, hfold, hclose⟩ := ok_bind_iff.mp h
  have hlive : Level.Live g { spec := root, path := [root.name] } := .opened _ _
  obtain ⟨around, l, rfl, hreaches⟩ :=
    State.reaches_of_fold hcovers' hlive hsound (fun _ => rfl) hfold hclose
  obtain ⟨l', hl, hclose⟩ := ok_bind_iff.mp hclose
  obtain ⟨closed, houter, hclose⟩ := ok_bind_iff.mp hclose
  cases hclose
  obtain ⟨rfl, honce, -, hclash, hcomplete, hleaf⟩ := Level.close_ok hreaches.live hl
  rw [List.append_nil] at houter
  obtain ⟨rfl, hclosed⟩ := Level.close_outer_ok (fun m hm => (hreaches.outer m hm).1) houter
  refine ⟨(around.map Level.settled).reverse, l.settled, by simp, ?_⟩
  exact
    { path := hreaches.path
      operands := hreaches.operands.trans (List.nil_append _)
      spec := hreaches.spec
      given := by
        have hall := hreaches.all
        have hsettled (ls : List Level) : (ls.map Level.settled).flatMap Level.given =
            ls.flatMap Level.all := List.flatMap_map ..
        rw [← List.map_reverse, List.flatMap_append, hsettled, List.flatMap_singleton]
        exact hall.trans (List.nil_append _)
      outer := by
        intro m hm given hgiven
        rw [List.mem_reverse] at hm
        have hoption := (hclosed m hm).2 given hgiven
        obtain ⟨m, haround, rfl⟩ := List.mem_map.mp hm
        obtain ⟨-, hcommands, hsound⟩ := hreaches.outer m haround
        have hfits := hsound.fits.2.1 (List.isEmpty_eq_false_iff.mpr hcommands)
        have hnone : m.settled.spec.options = [] := hfits.1
        rwa [Level.options, hnone, List.nil_append] at hoption
      once := by
        intro m hm
        rcases List.mem_append.mp hm with hm | hm
        · exact (hclosed m (List.mem_reverse.mp hm)).1
        · obtain rfl := List.mem_singleton.mp hm
          exact honce
      clash := hclash
      complete := hcomplete
      leaf := hleaf rfl }

end CommandLine
end CodeQuality
