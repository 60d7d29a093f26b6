import CodeQuality.Json.Container
import CodeQuality.Proofs.Json.Leaves
import CodeQuality.Text.Parts

/-!
# The parts of a container

The items of a list and the members of an object are read by loops of one kind: they look whether
another part comes, read it, and go on behind it. Such a loop reads just the texts that `join` puts
together of the texts of parts, each of which may have blanks around it.

* `Container.Comes`, `Container.Walks` — what a loop comes to that looks whether another part comes,
  and where it stands then.
* `Container.Separates` — how it tells whether one comes.
* `Container.Chain` — parts that are read one after the other.
* `Container.reads_parts`, `Container.parts_of_ok` — what is put together of parts is read, and
  whatever is read is put together of parts.
-/

namespace CodeQuality
namespace Json

variable {α β σ : Type}

namespace Reader

/-- The text of a part: what `reader` takes begins with a character that satisfies `opens`, and
blanks may stand around it. -/
inductive TakesUp (opens : Char → Prop) (reader : Reader α) : List Char → α → Prop where
  | mk {lead trail xs : List Char} {x : Char} {a : α} (hlead : Blanks lead) (htrail : Blanks trail)
      (hopens : opens x) (hreads : ∀ rest, Stops rest → reader.Reads (x :: xs) rest a) :
      TakesUp opens reader (lead ++ x :: xs ++ trail) a

theorem peek_bind (f : Option Char → Reader β) (c : Cursor) :
    (peek >>= f) c = f c.rest.head? c := rfl

theorem skip_bind (f : Unit → Reader β) (c : Cursor) : (skip >>= f) c = f () c.tail := rfl

theorem peekBehindSpace_bind (f : Option Char → Reader β) (c : Cursor) :
    (peekBehindSpace >>= f) c = f (c.dropWhile isSpace).rest.head? (c.dropWhile isSpace) := rfl

theorem of_pure_ok {a b : α} {c d : Cursor} (h : (pure a : Reader α) c = .ok (b, d)) :
    b = a ∧ d = c := by
  obtain ⟨rfl, rfl⟩ := Prod.mk.inj (Except.ok.inj h)
  exact ⟨rfl, rfl⟩

/-- A cursor leaves blanks behind. -/
theorem exists_blanks (c : Cursor) :
    ∃ blanks, Blanks blanks ∧ c.rest = blanks ++ (c.dropWhile isSpace).rest :=
  ⟨c.rest.takeWhile isSpace, fun _ hx => List.all_eq_true.mp List.all_takeWhile _ hx,
    List.takeWhile_append_dropWhile.symm⟩

/-- Behind its first character a cursor has all others. -/
theorem rest_eq_cons_tail {c : Cursor} {x : Char} (h : c.rest.head? = some x) :
    c.rest = x :: c.tail.rest := by
  obtain ⟨cs, p⟩ := c
  obtain ⟨cs, rfl⟩ := List.head?_eq_some_iff.mp h
  rfl

/-- What is read behind blanks begins at the first character that is none. -/
theorem of_peekBehindSpace_ok {f : Option Char → Reader β} {c c' : Cursor} {b : β}
    (h : (peekBehindSpace >>= f) c = .ok (b, c')) :
    ∃ blanks d, Blanks blanks ∧ c.rest = blanks ++ d.rest ∧ f d.rest.head? d = .ok (b, c') ∧
      ∀ x ∈ d.rest.head?, isSpace x = false := by
  obtain ⟨blanks, hblanks, htext⟩ := exists_blanks c
  exact ⟨blanks, c.dropWhile isSpace, hblanks, htext, h, isSpace_of_dropWhile _⟩

theorem of_skip_ok {f : Unit → Reader β} {c c' : Cursor} {x : Char} {b : β}
    (hx : c.rest.head? = some x) (h : (skip >>= f) c = .ok (b, c')) :
    ∃ d, c.rest = x :: d.rest ∧ f () d = .ok (b, c') := by
  obtain ⟨cs, p⟩ := c
  obtain ⟨cs, rfl⟩ : ∃ ds, cs = x :: ds := List.head?_eq_some_iff.mp hx
  obtain ⟨⟨⟩, d, hd, h⟩ := of_bind_ok h
  obtain ⟨-, rfl⟩ := Prod.mk.inj (Except.ok.inj hd)
  exact ⟨_, rfl, h⟩

end Reader

namespace Container

open Reader

/-- Where a loop stands that looks for another part of a container: in front of the part, or in
front of what closes the container. -/
structure Walks (more : Bool → Reader Bool) (opens : Char → Prop) (close : Char) : Prop where
  of_end {first : Bool} {c d : Cursor} (h : more first c = .ok (false, d)) :
    d = c.dropWhile isSpace ∧ d.rest.head? = some close
  of_begin {c d : Cursor} (h : more true c = .ok (true, d)) :
    d = c.dropWhile isSpace ∧ ∃ x, d.rest.head? = some x ∧ opens x
  of_goesOn {c d : Cursor} (h : more false c = .ok (true, d)) :
    (c.dropWhile isSpace).rest.head? = some ',' ∧
      d = (c.dropWhile isSpace).tail.dropWhile isSpace ∧ ∃ x, d.rest.head? = some x ∧ opens x

/-- What such a loop can come to from `c`: the end, the first part, or another one behind a comma. -/
inductive Comes (opens : Char → Prop) (close : Char) (c : Cursor) :
    (first another : Bool) → Cursor → Prop where
  | ends {first : Bool} (h : (c.dropWhile isSpace).rest.head? = some close) :
    Comes opens close c first false (c.dropWhile isSpace)
  | begins {x : Char} (h : (c.dropWhile isSpace).rest.head? = some x) (hx : opens x) :
    Comes opens close c true true (c.dropWhile isSpace)
  | goesOn {x : Char} (hcomma : (c.dropWhile isSpace).rest.head? = some ',')
    (h : ((c.dropWhile isSpace).tail.dropWhile isSpace).rest.head? = some x) (hx : opens x) :
    Comes opens close c false true ((c.dropWhile isSpace).tail.dropWhile isSpace)

namespace Walks

variable {more : Bool → Reader Bool} {opens : Char → Prop} {close : Char} {first : Bool}
  {c d : Cursor}

theorem of_comes (hcomes : ∀ {first another : Bool} {c d : Cursor},
    more first c = .ok (another, d) → Comes opens close c first another d) :
    Walks more opens close where
  of_end h := by
    cases hcomes h with
    | ends hclose => exact ⟨rfl, hclose⟩
  of_begin h := by
    cases hcomes h with
    | begins hx hopens => exact ⟨rfl, _, hx, hopens⟩
  of_goesOn h := by
    cases hcomes h with
    | goesOn hcomma hx hopens => exact ⟨hcomma, rfl, _, hx, hopens⟩

/-- What lies between two places at which such a loop stands: blanks, and a comma between parts. -/
theorem blanks_of_end (hmore : Walks more opens close) (h : more first c = .ok (false, d)) :
    ∃ blanks, Blanks blanks ∧ c.rest = blanks ++ d.rest ∧ d.rest.head? = some close := by
  obtain ⟨rfl, hclose⟩ := hmore.of_end h
  obtain ⟨blanks, hblanks, htext⟩ := exists_blanks c
  exact ⟨blanks, hblanks, htext, hclose⟩

theorem blanks_of_begin (hmore : Walks more opens close) (h : more true c = .ok (true, d)) :
    ∃ blanks x, Blanks blanks ∧ c.rest = blanks ++ d.rest ∧ d.rest.head? = some x ∧ opens x := by
  obtain ⟨rfl, x, hx, hopens⟩ := hmore.of_begin h
  obtain ⟨blanks, hblanks, htext⟩ := exists_blanks c
  exact ⟨blanks, x, hblanks, htext, hx, hopens⟩

theorem blanks_of_goesOn (hmore : Walks more opens close) (h : more false c = .ok (true, d)) :
    ∃ blanks lead x, Blanks blanks ∧ Blanks lead ∧ c.rest = blanks ++ ',' :: (lead ++ d.rest) ∧
      d.rest.head? = some x ∧ opens x := by
  obtain ⟨hcomma, rfl, x, hx, hopens⟩ := hmore.of_goesOn h
  obtain ⟨blanks, hblanks, htext⟩ := exists_blanks c
  obtain ⟨lead, hlead, hbehind⟩ := exists_blanks (c.dropWhile isSpace).tail
  refine ⟨blanks, lead, x, hblanks, hlead, ?_, hx, hopens⟩
  rw [← hbehind, ← rest_eq_cons_tail hcomma]
  exact htext

end Walks

/-- Another part begins with a character that satisfies `opens`, and `close` comes where there is
none. This is what `more` tells, in front of the first part or behind another one. -/
structure Separates (more : Bool → Reader Bool) (opens : Char → Prop) (close : Char) : Prop where
  ends {blanks : List Char} (first : Bool) (hb : Blanks blanks) (rest : List Char) :
    (more first).Reads blanks (close :: rest) false
  begins {blanks : List Char} {x : Char} (hb : Blanks blanks) (hx : opens x) (rest : List Char) :
    (more true).Reads blanks (x :: rest) true
  goesOn {blanks lead : List Char} {x : Char} (hb : Blanks blanks) (hl : Blanks lead)
    (hx : opens x) (rest : List Char) : (more false).Reads (blanks ++ ',' :: lead) (x :: rest) true
  of_end {first : Bool} {c d : Cursor} (h : more first c = .ok (false, d)) :
    ∃ blanks, Blanks blanks ∧ c.rest = blanks ++ d.rest ∧ d.rest.head? = some close
  of_begin {c d : Cursor} (h : more true c = .ok (true, d)) :
    ∃ blanks x, Blanks blanks ∧ c.rest = blanks ++ d.rest ∧ d.rest.head? = some x ∧ opens x
  of_goesOn {c d : Cursor} (h : more false c = .ok (true, d)) :
    ∃ blanks lead x, Blanks blanks ∧ Blanks lead ∧ c.rest = blanks ++ ',' :: (lead ++ d.rest) ∧
      d.rest.head? = some x ∧ opens x

/-- The texts of parts that are read one after the other and lead from `s` to `s'`. -/
def Chain (opens : Char → Prop) (part : σ → Reader σ) : List (List Char) → σ → σ → Prop
  | [], s, s' => s = s'
  | w :: ws, s, s' => ∃ s₁, (part s).TakesUp opens w s₁ ∧ Chain opens part ws s₁ s'

theorem Chain.append {opens : Char → Prop} {part : σ → Reader σ} {ws ws' : List (List Char)}
    {s s₁ s' : σ} (h : Chain opens part ws s s₁) (h' : Chain opens part ws' s₁ s') :
    Chain opens part (ws ++ ws') s s' := by
  induction ws generalizing s with
  | nil =>
    obtain rfl : s = s₁ := h
    exact h'
  | cons w ws ih =>
    obtain ⟨s₂, hw, hws⟩ := h
    exact ⟨s₂, hw, ih hws⟩

/-- Parts behind the first one have commas in front of them. -/
theorem join_cons_eq (w : List Char) (ws : List (List Char)) :
    Text.join ',' (w :: ws) = w ++ ws.flatMap (',' :: ·) := by
  induction ws generalizing w with
  | nil => exact (List.append_nil w).symm
  | cons v ws ih =>
    rw [Text.join_cons _ _ (List.cons_ne_nil v ws), ih v, List.flatMap_cons]
    rfl

/-- Behind a part of a container come blanks, a comma, or what closes it. -/
theorem stops_parts {trail closing rest : List Char} (ht : Blanks trail) (hc : Blanks closing)
    (hr : Stops rest) (ws : List (List Char)) :
    Stops (trail ++ ws.flatMap (',' :: ·) ++ closing ++ rest) := by
  rw [List.append_assoc, List.append_assoc]
  refine stops_append ht ?_
  cases ws with
  | nil =>
    show Stops (closing ++ rest)
    exact stops_append hc hr
  | cons w ws => exact stops_cons (.inr (.inl rfl)) _

/-- A loop over the parts of a container, as long as there is fuel. -/
structure Loops (more : Bool → Reader Bool) (part : σ → Reader σ) (out : σ → β)
    (loop : Nat → Bool → σ → Reader β) : Prop where
  zero (first : Bool) (s : σ) (c : Cursor) (r : β × Cursor) : loop 0 first s c ≠ .ok r
  succ (n : Nat) (first : Bool) (s : σ) : loop (n + 1) first s = more first >>= fun another =>
    if another then part s >>= loop n false else pure (out s)

section Loop

variable {more : Bool → Reader Bool} {opens : Char → Prop} {close : Char} {part : σ → Reader σ}
  {out : σ → β} {loop : Nat → Bool → σ → Reader β} {s s' : σ} {b : β} {c c' : Cursor}
  {ws : List (List Char)} {trail closing rest : List Char} {n : Nat}

/-- The parts behind the first one. -/
theorem reads_later (hmore : Separates more opens close) (hloop : Loops more part out loop)
    (hclose : Stops (close :: rest)) (ht : Blanks trail) (hc : Blanks closing)
    (h : Chain opens part ws s s') (hn : ws.length < n) :
    (loop n false s).Reads (trail ++ ws.flatMap (',' :: ·) ++ closing) (close :: rest)
      (out s') := by
  induction ws generalizing n trail s with
  | nil =>
    obtain ⟨n, rfl⟩ : ∃ m, n = m + 1 := ⟨n - 1, by simp at hn; omega⟩
    obtain rfl : s = s' := h
    have hblanks : Blanks (trail ++ closing) :=
      fun c hmem => (List.mem_append.mp hmem).elim (ht c) (hc c)
    rw [hloop.succ, List.flatMap_nil, List.append_nil]
    exact Reads.cast (Reads.bind (t := []) (hmore.ends false hblanks rest) (Reads.pure _ _))
      (List.append_nil _)
  | cons w ws ih =>
    obtain ⟨n, rfl⟩ : ∃ m, n = m + 1 := ⟨n - 1, by simp at hn; omega⟩
    obtain ⟨s₁, ⟨hlead, htrail, hopens, hreads⟩, hws⟩ := h
    -- A comma leads to the part, and behind the part comes the next comma or the end.
    have ih := ih htrail hws (Nat.lt_of_succ_lt_succ hn)
    have hpart := Reads.bind (hreads _ (stops_parts htrail hc hclose ws)) ih
    rw [hloop.succ]
    refine Reads.cast (Reads.bind (a := true) (hmore.goesOn ht hlead hopens _) hpart) ?_
    simp only [List.flatMap_cons, List.append_assoc, List.cons_append]

/-- What is put together of parts is read. -/
theorem reads_parts (hmore : Separates more opens close) (hloop : Loops more part out loop)
    (hclose : Stops (close :: rest)) (hc : Blanks closing) (h : Chain opens part ws s s')
    (hn : ws.length ≤ n) :
    (loop (n + 1) true s).Reads (Text.join ',' ws ++ closing) (close :: rest) (out s') := by
  rw [hloop.succ]
  cases ws with
  | nil =>
    obtain rfl : s = s' := h
    exact Reads.cast (Reads.bind (t := []) (hmore.ends true hc rest) (Reads.pure _ _))
      (List.append_nil _)
  | cons w ws =>
    obtain ⟨s₁, ⟨hlead, htrail, hopens, hreads⟩, hws⟩ := h
    -- The first part has no comma in front of it; all others are read by `reads_later`.
    have hlater := reads_later hmore hloop hclose htrail hc hws (Nat.lt_of_succ_le hn)
    have hpart := Reads.bind (hreads _ (stops_parts htrail hc hclose ws)) hlater
    refine Reads.cast (Reads.bind (a := true) (hmore.begins hlead hopens _) hpart) ?_
    simp only [join_cons_eq, List.append_assoc, List.cons_append]

/-- Is every part taken from its first character on, whatever state it is read in? -/
def TakesParts (opens : Char → Prop) (part : σ → Reader σ) : Prop :=
  ∀ s x, opens x → TakesAt (some x) Stops (part s)

theorem took_part (hpart : TakesParts opens part) {x : Char} (hx : c.rest.head? = some x)
    (hopens : opens x) (h : part s c = .ok (s', c')) :
    ∃ xs, c.rest = x :: xs ++ c'.rest ∧
      ∀ rest, Stops rest → (part s).Reads (x :: xs) rest s' := by
  obtain ⟨used, hne, htext, hreads⟩ := hpart s x hopens c s' c' hx h
  obtain ⟨y, xs, rfl⟩ := List.exists_cons_of_ne_nil hne
  rw [htext] at hx
  obtain rfl : y = x := Option.some.inj hx
  exact ⟨xs, htext, fun rest hrest => hreads rest (.inr hrest)⟩

theorem later_of_ok (hmore : Separates more opens close) (hloop : Loops more part out loop)
    (hpart : TakesParts opens part) (h : loop n false s c = .ok (b, c')) :
    ∃ trail ws s', Blanks trail ∧ c.rest = trail ++ ws.flatMap (',' :: ·) ++ c'.rest ∧
      c'.rest.head? = some close ∧ Chain opens part ws s s' ∧ b = out s' := by
  induction n generalizing s c with
  | zero => exact absurd h (hloop.zero _ _ _ _)
  | succ n ih =>
    rw [hloop.succ] at h
    obtain ⟨another, d, hanother, h⟩ := of_bind_ok h
    cases another with
    | false =>
      obtain ⟨blanks, hblanks, htext, hend⟩ := hmore.of_end hanother
      obtain ⟨rfl, rfl⟩ := Prod.mk.inj (Except.ok.inj h)
      refine ⟨blanks, [], s, hblanks, ?_, hend, rfl, rfl⟩
      rw [htext, List.flatMap_nil, List.append_nil]
    | true =>
      obtain ⟨blanks, lead, x, hblanks, hlead, htext, hx, hopens⟩ := hmore.of_goesOn hanother
      obtain ⟨s₁, e, hs₁, h⟩ := of_bind_ok h
      -- The blanks in front of the comma belong to the part before, those behind it to this one.
      obtain ⟨xs, hcore, hreads⟩ := took_part hpart hx hopens hs₁
      obtain ⟨trail, ws, s', htrail, hrest, hend, hws, rfl⟩ := ih h
      refine ⟨blanks, (lead ++ x :: xs ++ trail) :: ws, s', hblanks, ?_, hend,
        ⟨s₁, ⟨hlead, htrail, hopens, hreads⟩, hws⟩, rfl⟩
      rw [htext, hcore, hrest]
      simp only [List.flatMap_cons, List.append_assoc, List.cons_append]

/-- Whatever is read is put together of parts. Blanks in front of the closing bracket belong to the
last part, if there is one. -/
theorem parts_of_ok (hmore : Separates more opens close) (hloop : Loops more part out loop)
    (hpart : TakesParts opens part) (h : loop n true s c = .ok (b, c')) :
    ∃ ws closing s', Blanks closing ∧ (ws ≠ [] → closing = []) ∧
      c.rest = Text.join ',' ws ++ closing ++ c'.rest ∧ c'.rest.head? = some close ∧
      Chain opens part ws s s' ∧ b = out s' := by
  cases n with
  | zero => exact absurd h (hloop.zero _ _ _ _)
  | succ n =>
    rw [hloop.succ] at h
    obtain ⟨another, d, hanother, h⟩ := of_bind_ok h
    cases another with
    | false =>
      obtain ⟨blanks, hblanks, htext, hend⟩ := hmore.of_end hanother
      obtain ⟨rfl, rfl⟩ := Prod.mk.inj (Except.ok.inj h)
      exact ⟨[], blanks, s, hblanks, (absurd rfl ·), htext, hend, rfl, rfl⟩
    | true =>
      obtain ⟨lead, x, hlead, htext, hx, hopens⟩ := hmore.of_begin hanother
      obtain ⟨s₁, e, hs₁, h⟩ := of_bind_ok h
      obtain ⟨xs, hcore, hreads⟩ := took_part hpart hx hopens hs₁
      obtain ⟨trail, ws, s', htrail, hrest, hend, hws, rfl⟩ := later_of_ok hmore hloop hpart h
      refine ⟨(lead ++ x :: xs ++ trail) :: ws, [], s', no_blanks, fun _ => rfl, ?_, hend,
        ⟨s₁, ⟨hlead, htrail, hopens, hreads⟩, hws⟩, rfl⟩
      rw [htext, hcore, hrest]
      simp only [join_cons_eq, List.append_assoc, List.cons_append, List.nil_append]

/-- Every part but the first has a comma in front of it. -/
theorem length_le_join (ws : List (List Char)) : ws.length ≤ (Text.join ',' ws).length + 1 := by
  cases ws with
  | nil => exact Nat.zero_le _
  | cons w ws =>
    have hlater : ws.length ≤ (ws.flatMap (',' :: ·)).length := by
      induction ws with
      | nil => exact Nat.le_refl 0
      | cons v ws ih =>
        rw [List.flatMap_cons, List.length_append, List.length_cons, List.length_cons]
        omega
    rw [join_cons_eq, List.length_append, List.length_cons]
    omega

/-- As much fuel as there are characters is enough. -/
theorem reads_loop (hmore : Separates more opens close) (hloop : Loops more part out loop)
    (hclose : Stops (close :: rest)) (hc : Blanks closing) (h : Chain opens part ws s s') :
    (get >>= fun c => loop (c.rest.length + 1) true s : Reader β).Reads
      (Text.join ',' ws ++ closing) (close :: rest) (out s') := by
  refine Reads.get_bind fun p => reads_parts hmore hloop hclose hc h ?_
  have hlength := length_le_join ws
  simp only [List.length_append, List.length_cons]
  omega

theorem parts_of_loop (hmore : Separates more opens close) (hloop : Loops more part out loop)
    (hpart : TakesParts opens part)
    (h : (get >>= fun c => loop (c.rest.length + 1) true s : Reader β) c = .ok (b, c')) :
    ∃ ws closing s', Blanks closing ∧ (ws ≠ [] → closing = []) ∧
      c.rest = Text.join ',' ws ++ closing ++ c'.rest ∧ c'.rest.head? = some close ∧
      Chain opens part ws s s' ∧ b = out s' := by
  obtain ⟨_, _, hget, h⟩ := of_bind_ok h
  obtain ⟨rfl, rfl⟩ := Prod.mk.inj (Except.ok.inj hget)
  exact parts_of_ok hmore hloop hpart h

/-- What a loop takes depends on nothing but what comes next. -/
theorem local_loop (hmore : Separates more opens close) (hloop : Loops more part out loop)
    (hpart : TakesParts opens part) (hclose : ∀ rest, Stops (close :: rest)) :
    Local Nowhere (get >>= fun c => loop (c.rest.length + 1) true s : Reader β) := by
  intro o c b c' hc h
  obtain ⟨ws, closing, s', hclosing, -, htext, hend, hws, rfl⟩ :=
    parts_of_loop hmore hloop hpart h
  refine ⟨Text.join ',' ws ++ closing, htext, ?_⟩
  rintro rest (hrest | hrest)
  · rw [hend] at hrest
    obtain ⟨rest, rfl⟩ := List.head?_eq_some_iff.mp hrest
    exact reads_loop hmore hloop (hclose rest) hclosing hws
  · exact hrest.elim

end Loop

/-! ### Lists -/

/-- An item begins with anything but a blank or the bracket that closes the list. -/
def OpensItem (x : Char) : Prop := isSpace x = false ∧ x ≠ ']'

/-- No item begins with a blank, because blanks are passed over. -/
theorem opensItem_of_head {c : Cursor} {x : Char} (h : (c.dropWhile isSpace).rest.head? = some x)
    (hx : x ≠ ']') : OpensItem x := ⟨isSpace_of_dropWhile c.rest x h, hx⟩

theorem comes_hasItem {first another : Bool} {c d : Cursor}
    (h : hasItem first c = .ok (another, d)) : Comes OpensItem ']' c first another d := by
  rw [hasItem, peekBehindSpace_bind] at h
  generalize ho : (c.dropWhile isSpace).rest.head? = o at h
  split at h
  · cases h
  · obtain ⟨rfl, rfl⟩ := of_pure_ok h
    exact .ends ho
  · next x hx =>
    cases first with
    | true =>
      obtain ⟨rfl, rfl⟩ := of_pure_ok (c := c.dropWhile isSpace) h
      exact .begins ho (opensItem_of_head ho hx)
    | false =>
      simp only [Bool.false_eq_true, if_false] at h
      split at h
      · next hcomma =>
        subst hcomma
        rw [skip_bind, peekBehindSpace_bind] at h
        generalize hbehind : ((c.dropWhile isSpace).tail.dropWhile isSpace).rest.head? = o at h
        split at h
        · cases h
        · next y hy =>
          obtain ⟨rfl, rfl⟩ := of_pure_ok h
          exact .goesOn ho hbehind (opensItem_of_head hbehind hy)
        · cases h
      · cases h

theorem walks_hasItem : Walks hasItem OpensItem ']' := .of_comes comes_hasItem

theorem separates_hasItem : Separates hasItem OpensItem ']' where
  ends first hb rest := by
    rw [hasItem]
    exact Reads.cast (Reads.bind (t := []) (reads_peek_behind hb (c := ']') rfl rest)
      (Reads.pure false _)) (List.append_nil _)
  begins {blanks x} hb hx rest := by
    obtain ⟨hx, hne⟩ := hx
    rw [hasItem]
    refine Reads.cast (Reads.bind (t := []) (reads_peek_behind hb hx rest) ?_)
      (List.append_nil _)
    simp only [if_true]
    exact Reads.pure true _
  goesOn {blanks lead x} hb hl hx rest := by
    obtain ⟨hx, hne⟩ := hx
    rw [hasItem]
    refine Reads.bind (reads_peek_behind hb (c := ',') rfl _) ?_
    refine Reads.bind (s := [',']) (reads_skip ',' _) ?_
    refine Reads.cast (Reads.bind (t := []) (reads_peek_behind hl hx rest) ?_)
      (List.append_nil lead)
    simp only
    exact Reads.pure true _
  of_end := walks_hasItem.blanks_of_end
  of_begin := walks_hasItem.blanks_of_begin
  of_goesOn := walks_hasItem.blanks_of_goesOn

/-- Reads one more item, which is put in front of those that have been read. -/
abbrev nextItem (item : Reader α) (read : List α) : Reader (List α) :=
  item >>= fun a => pure (a :: read)

theorem loops_items (item : Reader α) :
    Loops hasItem (nextItem item) List.reverse (items item) where
  zero _ _ _ _ h := nomatch h
  succ n first read := by
    rw [items]
    congr
    funext another
    cases another
    · rfl
    · simp only [if_true, bind_assoc, pure_bind]

theorem takesParts_item {item : Reader α} (h : Takes Stops item) :
    TakesParts OpensItem (nextItem item) :=
  fun read x _ => h.bind (fun a => Local.pure (a :: read)) (some x)

theorem local_listBody {item : Reader α} (h : Takes Stops item) : Local Nowhere (listBody item) :=
  local_loop separates_hasItem (loops_items item) (takesParts_item h)
    fun _ => stops_cons (.inr (.inr (.inl rfl))) _

theorem reads_closeList (rest : List Char) : closeList.Reads [']'] rest () := by
  rw [closeList]
  exact Reads.bind (s := []) (reads_peek_behind no_blanks (c := ']') rfl rest)
    (reads_skip ']' rest)

theorem takes_closeList : Takes Anywhere closeList := by
  rw [closeList]
  refine Takes.peekBehindSpace fun o ho => ?_
  split
  · exact TakesAt.skip _
  · refine TakesAt.behind fun o => (Takes.peekBehindSpace (fun o ho => ?_) o).localAt
    split <;> exact TakesAt.failAhead _
  · exact TakesAt.failAhead _
  · exact TakesAt.failHere _

/-! ### Objects -/

/-- A member begins with the quote of its name. -/
def OpensMember (x : Char) : Prop := x = '"'

theorem comes_hasMember {first another : Bool} {c d : Cursor}
    (h : hasMember first c = .ok (another, d)) : Comes OpensMember '\x7d' c first another d := by
  rw [hasMember, peekBehindSpace_bind] at h
  generalize ho : (c.dropWhile isSpace).rest.head? = o at h
  split at h
  · cases h
  · obtain ⟨rfl, rfl⟩ := of_pure_ok h
    exact .ends ho
  · cases first with
    | true =>
      simp only [if_true] at h
      split at h
      · next hquote =>
        obtain ⟨rfl, rfl⟩ := of_pure_ok h
        exact .begins ho hquote
      · cases h
    | false =>
      simp only [Bool.false_eq_true, if_false] at h
      split at h
      · next hcomma =>
        subst hcomma
        rw [skip_bind, peekBehindSpace_bind] at h
        generalize hbehind : ((c.dropWhile isSpace).tail.dropWhile isSpace).rest.head? = o at h
        split at h
        · obtain ⟨rfl, rfl⟩ := of_pure_ok h
          exact .goesOn ho hbehind rfl
        all_goals cases h
      · cases h

theorem walks_hasMember : Walks hasMember OpensMember '\x7d' := .of_comes comes_hasMember

theorem separates_hasMember : Separates hasMember OpensMember '\x7d' where
  ends first hb rest := by
    rw [hasMember]
    exact Reads.cast (Reads.bind (t := []) (reads_peek_behind hb (c := '\x7d') rfl rest)
      (Reads.pure false _)) (List.append_nil _)
  begins {blanks x} hb hx rest := by
    obtain rfl : x = '"' := hx
    rw [hasMember]
    refine Reads.cast (Reads.bind (t := []) (reads_peek_behind hb (c := '"') rfl rest) ?_)
      (List.append_nil _)
    simp only [if_true]
    exact Reads.pure true _
  goesOn {blanks lead x} hb hl hx rest := by
    obtain rfl : x = '"' := hx
    rw [hasMember]
    refine Reads.bind (reads_peek_behind hb (c := ',') rfl _) ?_
    refine Reads.bind (s := [',']) (reads_skip ',' _) ?_
    exact Reads.cast (Reads.bind (t := []) (reads_peek_behind hl (c := '"') rfl rest)
      (Reads.pure true _)) (List.append_nil lead)
  of_end := walks_hasMember.blanks_of_end
  of_begin := walks_hasMember.blanks_of_begin
  of_goesOn := walks_hasMember.blanks_of_goesOn

/-- Reads one more member: its name, and behind it what `step` reads. -/
abbrev nextMember (step : String → σ → Reader σ) (s : σ) : Reader σ :=
  skip >>= fun _ => Quoted.body >>= fun name => step name s

theorem loops_members (step : String → σ → Reader σ) :
    Loops hasMember (nextMember step) id (members step) where
  zero _ _ _ _ h := nomatch h
  succ n first s := by
    rw [members]
    congr
    funext another
    cases another
    · rfl
    · simp only [if_true, bind_assoc]

theorem takesParts_member {step : String → σ → Reader σ}
    (h : ∀ name s, Local Stops (step name s)) : TakesParts OpensMember (nextMember step) := by
  intro s x hx
  exact TakesAt.behind (Quoted.takes_body.anywhere.local.bind fun name => h name s)

theorem local_objectBody {step : String → σ → Reader σ} (h : ∀ name s, Local Stops (step name s))
    (start : σ) : Local Nowhere (objectBody step start) :=
  local_loop separates_hasMember (loops_members step) (takesParts_member h)
    fun _ => stops_cons (.inr (.inr (.inr rfl))) _

theorem reads_colon {blanks : List Char} (hb : Blanks blanks) (rest : List Char) :
    colon.Reads (blanks ++ [':']) rest () := by
  rw [colon]
  exact Reads.of_peek hb rfl (reads_skip ':' rest)

theorem takes_colon : Takes Anywhere colon := by
  rw [colon]
  refine Takes.peekBehindSpace fun o ho => ?_
  split
  · exact TakesAt.failHere _
  · exact TakesAt.skip _
  · exact TakesAt.failAhead _

theorem reads_closeObject (rest : List Char) : closeObject.Reads ['\x7d'] rest () := by
  rw [closeObject]
  exact Reads.bind (s := []) (reads_peek_behind no_blanks (c := '\x7d') rfl rest)
    (reads_skip '\x7d' rest)

theorem takes_closeObject : Takes Anywhere closeObject := by
  rw [closeObject]
  refine Takes.peekBehindSpace fun o ho => ?_
  split
  · exact TakesAt.skip _
  · exact TakesAt.failAhead _
  · exact TakesAt.failAhead _
  · exact TakesAt.failHere _

end Container
end Json
end CodeQuality
