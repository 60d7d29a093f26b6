import CodeQuality.Proofs.Json.Reading

/-!
# What a reader takes does not depend on what follows

A reader looks at no more than one character behind what it takes. What it has taken off one
document it therefore takes off every document that goes on with the same character. Often it may
go on with other characters too, since a text ends with its quote and a list with its bracket,
whatever comes behind; a property of what follows says with which. So the parts of a document can
be cut out, and be read alone or somewhere else.

* `Reader.Took` — what has been taken at one place is taken elsewhere.
* `Reader.Local`, `Reader.Takes` — this holds of everything that a reader takes.
* `Local.bind`, `Takes.bind`, `Local.takes`, … — how it is carried from the parts of a reader to
  the whole.
-/

namespace CodeQuality
namespace Json

variable {α β σ : Type}

/-- Anything may follow. -/
def Anywhere (_ : List Char) : Prop := True

/-- Nothing but the character may follow that has been there. -/
def Nowhere (_ : List Char) : Prop := False

namespace Reader

/-- Reading at `c` has taken `used` and led to `c'`, and it would take the same in front of whatever
goes on like `c'` or satisfies `S`. -/
structure Took (S : List Char → Prop) (reader : Reader α) (c : Cursor) (a : α) (c' : Cursor)
    (used : List Char) : Prop where
  text : c.rest = used ++ c'.rest
  reads : ∀ rest, rest.head? = c'.rest.head? ∨ S rest → reader.Reads used rest a

/-- What is taken where `o` comes next does not depend on what follows, as far as that goes on as
before or satisfies `S`. -/
def LocalAt (o : Option Char) (S : List Char → Prop) (reader : Reader α) : Prop :=
  ∀ c a c', c.rest.head? = o → reader c = .ok (a, c') → ∃ used, Took S reader c a c' used

/-- The same, and something is taken. -/
def TakesAt (o : Option Char) (S : List Char → Prop) (reader : Reader α) : Prop :=
  ∀ c a c', c.rest.head? = o → reader c = .ok (a, c') →
    ∃ used, used ≠ [] ∧ Took S reader c a c' used

/-- What is taken anywhere does not depend on what follows. -/
def Local (S : List Char → Prop) (reader : Reader α) : Prop := ∀ o, LocalAt o S reader

/-- Something is always taken, and it does not depend on what follows. -/
def Takes (S : List Char → Prop) (reader : Reader α) : Prop := ∀ o, TakesAt o S reader

variable {S T : List Char → Prop} {reader : Reader α} {f : α → Reader β} {o : Option Char}
  {c d c' : Cursor} {a : α} {b : β} {used more : List Char}

theorem of_bind_ok (h : (reader >>= f) c = .ok (b, c')) :
    ∃ a d, reader c = .ok (a, d) ∧ f a d = .ok (b, c') := by
  cases hr : reader c with
  | error e =>
    rw [bind_of_error hr] at h
    nomatch h
  | ok r =>
    obtain ⟨a, d⟩ := r
    rw [bind_of_ok hr] at h
    exact ⟨a, d, rfl, h⟩

/-! ### Parts behind each other -/

/-- Only if the second part takes nothing can what follows the whole be seen by the first. -/
theorem Took.bind (hr : Took T reader c a d used) (hf : Took S (f a) d b c' more)
    (h : more = [] → ∀ rest, S rest → T rest) :
    Took S (reader >>= f) c b c' (used ++ more) := by
  refine ⟨by rw [hr.text, hf.text, List.append_assoc], fun rest hrest => ?_⟩
  refine Reads.bind (hr.reads (more ++ rest) ?_) (hf.reads rest hrest)
  -- Behind the first part comes what the second one takes, which is the same as before.
  rw [hf.text]
  cases more with
  | nil => exact hrest.imp_right (h rfl rest)
  | cons x more => exact .inl rfl

theorem TakesAt.localAt (h : TakesAt o S reader) : LocalAt o S reader := by
  intro c a c' hc hr
  obtain ⟨used, -, htook⟩ := h c a c' hc hr
  exact ⟨used, htook⟩

theorem Takes.local (h : Takes S reader) : Local S reader := fun o => (h o).localAt

theorem Took.mono (h : Took T reader c a d used) (hS : ∀ rest, S rest → T rest) :
    Took S reader c a d used :=
  ⟨h.text, fun rest hrest => h.reads rest (hrest.imp_right (hS rest))⟩

theorem LocalAt.mono (h : LocalAt o T reader) (hS : ∀ rest, S rest → T rest) :
    LocalAt o S reader := by
  intro c a c' hc hr
  obtain ⟨used, hused⟩ := h c a c' hc hr
  exact ⟨used, hused.mono hS⟩

theorem TakesAt.mono (h : TakesAt o T reader) (hS : ∀ rest, S rest → T rest) :
    TakesAt o S reader := by
  intro c a c' hc hr
  obtain ⟨used, hne, hused⟩ := h c a c' hc hr
  exact ⟨used, hne, hused.mono hS⟩

/-- What does not depend on what follows at all can be followed by anything. -/
theorem Local.anywhere (h : Local Anywhere reader) : Local S reader :=
  fun o => (h o).mono fun _ _ => trivial

theorem Takes.anywhere (h : Takes Anywhere reader) : Takes S reader :=
  fun o => (h o).mono fun _ _ => trivial

theorem LocalAt.bind (hr : LocalAt o S reader) (hf : ∀ a, Local S (f a)) :
    LocalAt o S (reader >>= f) := by
  intro c b c' hc h
  obtain ⟨a, d, ha, hb⟩ := of_bind_ok h
  obtain ⟨used, hused⟩ := hr c a d hc ha
  obtain ⟨more, hmore⟩ := hf a _ d b c' rfl hb
  exact ⟨used ++ more, hused.bind hmore fun _ _ hrest => hrest⟩

theorem TakesAt.bind (hr : TakesAt o S reader) (hf : ∀ a, Local S (f a)) :
    TakesAt o S (reader >>= f) := by
  intro c b c' hc h
  obtain ⟨a, d, ha, hb⟩ := of_bind_ok h
  obtain ⟨used, hne, hused⟩ := hr c a d hc ha
  obtain ⟨more, hmore⟩ := hf a _ d b c' rfl hb
  exact ⟨used ++ more, List.append_ne_nil_of_left_ne_nil hne more,
    hused.bind hmore fun _ _ hrest => hrest⟩

/-- If something is taken later, it is this that the first part sees. -/
theorem LocalAt.takes (hr : LocalAt o T reader) (hf : ∀ a, Takes S (f a)) :
    TakesAt o S (reader >>= f) := by
  intro c b c' hc h
  obtain ⟨a, d, ha, hb⟩ := of_bind_ok h
  obtain ⟨used, hused⟩ := hr c a d hc ha
  obtain ⟨more, hne, hmore⟩ := hf a _ d b c' rfl hb
  exact ⟨used ++ more, List.append_ne_nil_of_right_ne_nil used hne,
    hused.bind hmore fun hnil => absurd hnil hne⟩

theorem Local.bind (hr : Local S reader) (hf : ∀ a, Local S (f a)) : Local S (reader >>= f) :=
  fun o => (hr o).bind hf

theorem Takes.bind (hr : Takes S reader) (hf : ∀ a, Local S (f a)) : Takes S (reader >>= f) :=
  fun o => (hr o).bind hf

theorem Local.takes (hr : Local T reader) (hf : ∀ a, Takes S (f a)) : Takes S (reader >>= f) :=
  fun o => (hr o).takes hf

theorem Took.pure (a : α) (c : Cursor) : Took S (Pure.pure a : Reader α) c a c [] :=
  ⟨rfl, fun rest _ => Reads.pure a rest⟩

theorem Local.pure (a : α) : Local S (Pure.pure a : Reader α) := by
  intro o c b c' hc h
  obtain ⟨rfl, rfl⟩ := Prod.mk.inj (Except.ok.inj h)
  exact ⟨[], Took.pure a c⟩

/-! ### Failures -/

section Failures

variable (cause : Cause)

theorem failHere_ne_ok (c : Cursor) (r : α × Cursor) : Reader.failHere cause c ≠ .ok r := by
  rintro ⟨⟩

theorem failAhead_ne_ok (c : Cursor) (r : α × Cursor) : Reader.failAhead cause c ≠ .ok r := by
  rintro ⟨⟩

theorem fail_ne_ok (c : Cursor) (r : α × Cursor) : Reader.fail cause c ≠ .ok r := by
  rintro ⟨⟩

theorem TakesAt.failHere : TakesAt o S (Reader.failHere cause : Reader α) :=
  fun c a c' _ h => absurd h (failHere_ne_ok cause c (a, c'))

theorem TakesAt.failAhead : TakesAt o S (Reader.failAhead cause : Reader α) :=
  fun c a c' _ h => absurd h (failAhead_ne_ok cause c (a, c'))

theorem TakesAt.fail : TakesAt o S (Reader.fail cause : Reader α) :=
  fun c a c' _ h => absurd h (fail_ne_ok cause c (a, c'))

theorem TakesAt.failHere_bind (f : α → Reader β) : TakesAt o S (Reader.failHere cause >>= f) :=
  fun c b c' _ h => absurd h (failHere_ne_ok cause c (b, c'))

theorem TakesAt.failAhead_bind (f : α → Reader β) : TakesAt o S (Reader.failAhead cause >>= f) :=
  fun c b c' _ h => absurd h (failAhead_ne_ok cause c (b, c'))

end Failures

/-! ### The cursor and single characters -/

/-- Where the cursor is asked for, it must not matter to the value that is read. -/
theorem TakesAt.get_bind {f : Cursor → Reader β} (hf : ∀ start, TakesAt o S (f start))
    (hsame : ∀ start start' c b c', f start c = .ok (b, c') → f start' c = .ok (b, c')) :
    TakesAt o S (get >>= f) := by
  intro c b c' hc h
  obtain ⟨used, hne, hused⟩ := hf c c b c' hc h
  refine ⟨used, hne, hused.text, fun rest hrest => Reads.get_bind fun p => ?_⟩
  -- Another cursor makes another reader, but what that takes off the old text is the same.
  obtain ⟨more, -, hmore⟩ := hf ⟨used ++ rest, p⟩ c b c' hc (hsame _ _ c b c' h)
  have hcut := hused.text.symm.trans hmore.text
  obtain rfl := List.append_cancel_right hcut
  exact hmore.reads rest hrest

theorem TakesAt.skip (x : Char) : TakesAt (some x) S Reader.skip := by
  intro c a c' hc h
  obtain ⟨xs, p⟩ := c
  obtain ⟨xs, rfl⟩ : ∃ ys, xs = x :: ys := List.head?_eq_some_iff.mp hc
  obtain ⟨-, rfl⟩ := Prod.mk.inj (Except.ok.inj h)
  exact ⟨[x], List.cons_ne_nil _ _, rfl, fun rest _ => reads_skip x rest⟩

/-- A character that is seen and then passed over. -/
theorem TakesAt.behind {x : Char} {next : Reader β} (h : Local S next) :
    TakesAt (some x) S (Reader.skip >>= fun _ => next) :=
  TakesAt.bind (TakesAt.skip x) fun _ => h

/-- What is taken after a look at the next character begins with that character. -/
theorem TakesAt.peek {f : Option Char → Reader β} (h : TakesAt o S (f o)) :
    TakesAt o S (Reader.peek >>= f) := by
  intro c b c' hc hb
  obtain ⟨used, hne, htext, hreads⟩ := h c b c' hc (hc ▸ hb)
  refine ⟨used, hne, htext, fun rest hrest => ?_⟩
  have hhead : (used ++ rest).head? = o := by
    rw [← hc, htext]
    cases used with
    | nil => exact absurd rfl hne
    | cons x used => rfl
  refine Reads.bind (s := []) (reads_peek (used ++ rest)) ?_
  rw [hhead]
  exact hreads rest hrest

/-- Where `next` comes unless there is a certain character, whatever may follow must lead to `next`
as well. -/
theorem Local.peek {f : Option Char → Reader β} {next : Reader β} (hnext : Local S next)
    (hS : ∀ rest, S rest → f rest.head? = next) (h : ∀ o, TakesAt o S (f o) ∨ f o = next) :
    Local S (Reader.peek >>= f) := by
  intro o c b c' hc hb
  rcases h o with htakes | hdefault
  · exact htakes.peek.localAt c b c' hc hb
  have hb : next c = .ok (b, c') := by
    rw [← hdefault, ← hc]
    exact hb
  obtain ⟨used, htext, hreads⟩ := hnext o c b c' hc hb
  refine ⟨used, htext, fun rest hrest => ?_⟩
  refine Reads.bind (s := []) (reads_peek (used ++ rest)) ?_
  -- If something was taken, it is seen again; if not, what follows must lead to `next` too.
  have hsame : f (used ++ rest).head? = next := by
    rw [htext] at hc
    cases used with
    | nil =>
      rcases hrest with hrest | hrest
      · rw [List.nil_append, hrest, ← hdefault, ← hc]
        rfl
      · exact hS rest hrest
    | cons x used =>
      rw [← hdefault, ← hc]
      rfl
  rw [hsame]
  exact hreads rest hrest

theorem isSpace_of_dropWhile (cs : List Char) :
    ∀ x ∈ (cs.dropWhile isSpace).head?, isSpace x = false := by
  intro x hx
  have hhead := List.head?_dropWhile_not isSpace cs
  rw [hx] at hhead
  exact hhead

theorem local_peekBehindSpace : Local Nowhere peekBehindSpace := by
  intro o c a c' hc h
  obtain ⟨rfl, rfl⟩ := Prod.mk.inj (Except.ok.inj h)
  refine ⟨c.rest.takeWhile isSpace, List.takeWhile_append_dropWhile.symm, ?_⟩
  rintro rest (hrest | hrest)
  · have hhead : rest.head? = (c.rest.dropWhile isSpace).head? := hrest
    show peekBehindSpace.Reads _ rest (c.rest.dropWhile isSpace).head?
    rw [← hhead]
    refine reads_peekBehindSpace (fun x hx => List.all_eq_true.mp List.all_takeWhile x hx) ?_
    rw [hhead]
    exact isSpace_of_dropWhile _
  · exact hrest.elim

/-- What is taken after a look behind the blanks ends with what was seen there. -/
theorem Takes.peekBehindSpace {f : Option Char → Reader β}
    (h : ∀ o, (∀ x ∈ o, isSpace x = false) → TakesAt o S (f o)) :
    Takes S (Reader.peekBehindSpace >>= f) := by
  intro o c b c' hc hb
  obtain ⟨a, d, ha, hb⟩ := of_bind_ok hb
  obtain ⟨used, hused⟩ := local_peekBehindSpace o c a d hc ha
  obtain ⟨rfl, rfl⟩ := Prod.mk.inj (Except.ok.inj ha)
  obtain ⟨more, hne, hmore⟩ := h _ (isSpace_of_dropWhile _) _ b c' rfl hb
  exact ⟨used ++ more, List.append_ne_nil_of_right_ne_nil used hne,
    hused.bind hmore fun hnil => absurd hnil hne⟩

theorem of_settled_ok {finish : Cursor → Cursor} {r : α × Cursor}
    (h : Reader.settled finish reader c = .ok r) : reader c = .ok r := by
  rw [Reader.settled] at h
  split at h
  · next heq => exact heq.trans h
  · cases h

theorem Takes.settled (h : Takes S reader) (finish : Cursor → Cursor) :
    Takes S (Reader.settled finish reader) := by
  intro o c a c' hc hr
  obtain ⟨used, hne, htext, hreads⟩ := h o c a c' hc (of_settled_ok hr)
  exact ⟨used, hne, htext, fun rest hrest => (hreads rest hrest).settled⟩

/-- The letters of a name, whatever follows. -/
theorem local_letters (ls : List Char) : Local Anywhere (letters ls) := by
  induction ls with
  | nil => exact Local.pure ()
  | cons l ls ih =>
    intro o
    rw [letters]
    refine (TakesAt.peek ?_).localAt
    split
    · exact TakesAt.failHere _
    · split
      · exact TakesAt.behind ih
      · exact TakesAt.failAhead _

/-! ### Loops -/

/-- A loop goes on from state to state until a step ends it. Each step that does not end it takes
something, so that as much fuel is enough as characters are taken; it may be a bit less if the last
step takes at least `least` of them. -/
theorem took_of_loop (loop : Nat → σ → Reader β) (step : σ → Reader (σ ⊕ β)) {least : Nat}
    (hzero : ∀ s c r, loop 0 s c ≠ .ok r)
    (hsucc : ∀ n s, loop (n + 1) s = step s >>= Sum.elim (loop n) Pure.pure)
    (hstep : ∀ s c r c', step s c = .ok (r, c') → ∃ used : List Char,
      r.elim (fun _ => 1) (fun _ => least) ≤ used.length ∧ Took S (step s) c r c' used)
    {n : Nat} {s : σ} (h : loop n s c = .ok (b, c')) :
    ∃ used : List Char, least ≤ used.length ∧
      ∀ m, used.length < m + least → Took S (loop m s) c b c' used := by
  induction n generalizing s c with
  | zero => exact absurd h (hzero s c _)
  | succ n ih =>
    rw [hsucc] at h
    obtain ⟨r, d, hr, h⟩ := of_bind_ok h
    obtain ⟨used, hlength, hused⟩ := hstep s c r d hr
    -- A step that ends the loop needs one round of fuel; any other leaves more to be taken.
    cases r with
    | inr b' =>
      obtain ⟨rfl, rfl⟩ := Prod.mk.inj (Except.ok.inj h)
      refine ⟨used, hlength, fun m hm => ?_⟩
      obtain ⟨m, rfl⟩ : ∃ k, m = k + 1 := ⟨m - 1, by simp only [Sum.elim_inr] at hlength; omega⟩
      have htook := hused.bind (f := Sum.elim (loop m) Pure.pure) (Took.pure b' d)
        fun _ _ hrest => hrest
      rwa [List.append_nil, ← hsucc] at htook
    | inl s' =>
      obtain ⟨more, hleast, hmore⟩ := ih h
      simp only [Sum.elim_inl] at hlength
      refine ⟨used ++ more, by rw [List.length_append]; omega, fun m hm => ?_⟩
      rw [List.length_append] at hm
      obtain ⟨m, rfl⟩ : ∃ k, m = k + 1 := ⟨m - 1, by omega⟩
      have htook := hused.bind (f := Sum.elim (loop m) Pure.pure) (hmore m (by omega))
        fun _ _ hrest => hrest
      rwa [← hsucc] at htook

/-- If every step takes something, as much fuel is enough as characters are taken. -/
theorem took_of_takes (loop : Nat → σ → Reader β) (step : σ → Reader (σ ⊕ β))
    (hzero : ∀ s c r, loop 0 s c ≠ .ok r)
    (hsucc : ∀ n s, loop (n + 1) s = step s >>= Sum.elim (loop n) Pure.pure)
    (hstep : ∀ s, Takes S (step s)) {n : Nat} {s : σ} (h : loop n s c = .ok (b, c')) :
    ∃ used, used ≠ [] ∧ ∀ m, used.length ≤ m → Took S (loop m s) c b c' used := by
  have htook : ∀ s c r c', step s c = .ok (r, c') → ∃ used : List Char,
      r.elim (fun _ => 1) (fun _ => 1) ≤ used.length ∧ Took S (step s) c r c' used := by
    intro s c r c' hr
    obtain ⟨used, hne, hused⟩ := hstep s _ c r c' rfl hr
    have hpos := List.length_pos_iff.mpr hne
    exact ⟨used, by cases r <;> exact hpos, hused⟩
  obtain ⟨used, hlength, hused⟩ := took_of_loop loop step hzero hsucc htook h
  exact ⟨used, List.ne_nil_of_length_pos hlength, fun m hm => hused m (Nat.lt_succ_of_le hm)⟩

end Reader
end Json
end CodeQuality
