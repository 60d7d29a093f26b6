import CodeQuality.Proofs.Json.Scanned

/-!
# What can be read can be passed over

A value that nobody needs is only passed over: its texts may hold single surrogates, its numbers
may be too large, and it may be nested to any depth. Whatever is read as a value is passed over as
well, and up to the same place.

* `Quoted.passes_body`, `NumberText.passes_read` — texts and numbers.
* `Skipped.scans_of_listBody`, `Skipped.scans_of_objectBody` — what stands between brackets.
* `Skipped.passes_value` — whole values.
-/

namespace CodeQuality
namespace Json

open Reader

variable {α β σ : Type}

/-- Whatever `reader` takes `skipper` passes over. -/
def Reader.Passes (skipper : Reader Unit) (reader : Reader α) : Prop :=
  ∀ c a c', reader c = .ok (a, c') → skipper c = .ok ((), c')

/-! ### Texts -/

namespace Quoted

theorem skipPieces_succ {c d : Cursor} (h : skipPiece c = .ok (false, d)) (n : Nat) :
    skipPieces (n + 1) c = skipPieces n d := by
  rw [skipPieces, bind_of_ok h]
  rfl

/-- A character by its number is one piece. -/
theorem skipPiece_number {c d : Cursor} {n : Nat} (h : c.rest.head? = some '\\')
    (hu : c.tail.rest.head? = some 'u') (hd : fourDigits c.tail.tail = .ok (n, d)) :
    skipPiece c = .ok (false, d) := by
  rw [skipPiece, peek_bind, h]
  simp only [skip_bind, peek_bind, hu]
  rw [bind_of_ok hd]
  rfl

theorem of_behindSurrogate_ok {x : Char} {c d : Cursor}
    (h : behindSurrogate x c = .ok ((), d)) : c.rest.head? = some x ∧ d = c.tail := by
  rw [behindSurrogate, peek_bind] at h
  generalize c.rest.head? = o at h ⊢
  split at h
  · cases h
  · split at h
    · next hx =>
      obtain ⟨-, rfl⟩ := Prod.mk.inj (Except.ok.inj h)
      exact ⟨congrArg some hx, rfl⟩
    · cases h

/-- A character by its number, or by two of them, is one piece or two. -/
theorem skipPieces_numbered {c d : Cursor} {x : Char} (h : c.rest.head? = some '\\')
    (hu : c.tail.rest.head? = some 'u') (hn : numbered c.tail.tail = .ok (x, d)) :
    ∃ k, ∀ n, skipPieces (n + k) c = skipPieces n d := by
  obtain ⟨n, e, hdigits, hn⟩ := of_bind_ok hn
  have hfirst := skipPiece_number h hu hdigits
  dsimp only at hn
  split at hn
  · split at hn <;> cases hn
  split at hn
  · -- Another number must follow, and it is a piece of its own.
    obtain ⟨⟨⟩, f, hf, hbehind⟩ := of_bind_ok hn
    obtain ⟨⟨⟩, g, hg, hlow⟩ := of_bind_ok hbehind
    obtain ⟨m, d', hdigits', hpure⟩ := of_bind_ok hlow
    obtain ⟨hslash, rfl⟩ := of_behindSurrogate_ok hf
    obtain ⟨hu', rfl⟩ := of_behindSurrogate_ok hg
    have hsecond := skipPiece_number hslash hu' hdigits'
    split at hpure
    · obtain ⟨-, rfl⟩ := of_pure_ok hpure
      exact ⟨2, fun n => (skipPieces_succ hfirst (n + 1)).trans (skipPieces_succ hsecond n)⟩
    · cases hpure
  · obtain ⟨-, rfl⟩ := of_pure_ok hn
    exact ⟨1, fun n => skipPieces_succ hfirst n⟩

/-- So is a character by its letter. -/
theorem skipPiece_letter {c : Cursor} {letter : Char} (h : c.rest.head? = some '\\')
    (hl : c.tail.rest.head? = some letter) (hne : letter ≠ 'u')
    (hknown : (unescape? letter).isSome = true) : skipPiece c = .ok (false, c.tail.tail) := by
  rw [skipPiece, peek_bind, h]
  simp only [skip_bind, peek_bind]
  generalize c.tail.rest.head? = o at hl
  split
  · cases hl
  · exact absurd (Option.some.inj hl).symm hne
  · obtain rfl := Option.some.inj hl
    rw [if_pos hknown]
    rfl

/-- So is a character that stands for itself. -/
theorem skipPiece_self {c : Cursor} {x : Char} (h : c.rest.head? = some x) (hquote : x ≠ '"')
    (hslash : x ≠ '\\') (hcontrol : ¬ x.toNat < 0x20) : skipPiece c = .ok (false, c.tail) := by
  rw [skipPiece, peek_bind]
  generalize c.rest.head? = o at h
  split
  · cases h
  · exact absurd (Option.some.inj h).symm hquote
  · exact absurd (Option.some.inj h).symm hslash
  · obtain rfl := Option.some.inj h
    rw [if_neg hcontrol]
    rfl

theorem skipPieces_piece {c d : Cursor} {x : Char} (h : piece c = .ok (some x, d)) :
    ∃ k, ∀ n, skipPieces (n + k) c = skipPieces n d := by
  have hone (hskip : skipPiece c = .ok (false, d)) :
      ∃ k, ∀ n, skipPieces (n + k) c = skipPieces n d := ⟨1, fun n => skipPieces_succ hskip n⟩
  rw [piece, peek_bind] at h
  generalize ho : c.rest.head? = o at h
  split at h
  · cases h
  · cases (of_pure_ok h).1
  · rw [skip_bind, peek_bind] at h
    generalize ho' : c.tail.rest.head? = o' at h
    split at h
    · cases h
    · rw [skip_bind] at h
      obtain ⟨y, hnumbered, -⟩ := of_map_ok h
      exact skipPieces_numbered ho ho' hnumbered
    · next letter hletter =>
      cases hy : unescape? letter with
      | none =>
        rw [hy] at h
        cases h
      | some y =>
        rw [hy] at h
        obtain ⟨-, rfl⟩ := of_pure_ok (c := c.tail.tail) h
        exact hone (skipPiece_letter ho ho' hletter (by rw [hy]; rfl))
  · next y hquote hslash =>
    split at h
    · cases h
    · next hcontrol =>
      obtain ⟨-, rfl⟩ := of_pure_ok (c := c.tail) h
      exact hone (skipPiece_self ho hquote hslash hcontrol)

/-- Only the quote ends a text. -/
theorem skipPiece_end {c d : Cursor} (h : piece c = .ok (none, d)) :
    skipPiece c = .ok (true, d) := by
  rw [piece, peek_bind] at h
  rw [skipPiece, peek_bind]
  generalize c.rest.head? = o at h
  split at h
  · cases h
  · obtain ⟨-, rfl⟩ := of_pure_ok (c := c.tail) h
    rfl
  · rw [skip_bind, peek_bind] at h
    generalize c.tail.rest.head? = o' at h
    split at h
    · cases h
    · rw [skip_bind] at h
      obtain ⟨y, -, heq⟩ := of_map_ok h
      cases heq
    · next letter _ =>
      cases hy : unescape? letter with
      | none =>
        rw [hy] at h
        cases h
      | some y =>
        rw [hy] at h
        cases (of_pure_ok (c := c.tail.tail) h).1
  · split at h
    · cases h
    · cases (of_pure_ok (c := c.tail) h).1

theorem skipPieces_of_pieces {fuel : Nat} {read cs : List Char} {c c' : Cursor}
    (h : pieces fuel read c = .ok (cs, c')) :
    ∃ k, ∀ n, skipPieces (n + k) c = .ok ((), c') := by
  induction fuel generalizing read c with
  | zero => cases h
  | succ fuel ih =>
    rw [pieces] at h
    obtain ⟨o, d, hpiece, h⟩ := of_bind_ok h
    cases o with
    | none =>
      obtain ⟨-, rfl⟩ := of_pure_ok h
      refine ⟨1, fun n => ?_⟩
      rw [skipPieces, bind_of_ok (skipPiece_end hpiece)]
      rfl
    | some x =>
      obtain ⟨k, hk⟩ := skipPieces_piece hpiece
      obtain ⟨j, hj⟩ := ih h
      refine ⟨j + k, fun n => ?_⟩
      rw [← Nat.add_assoc, hk, hj]

theorem passes_body : skipBody.Passes body := by
  intro c s c' h
  obtain ⟨_, _, hget, h⟩ := of_bind_ok h
  obtain ⟨rfl, rfl⟩ := Prod.mk.inj (Except.ok.inj hget)
  obtain ⟨cs, hcs, -⟩ := of_map_ok h
  obtain ⟨k, hk⟩ := skipPieces_of_pieces hcs
  exact ok_of_took hk (fun _ h => took_skipPieces h) (Nat.le_refl _)

end Quoted

/-! ### Numbers -/

namespace NumberText

/-- What is passed over behind the sign of a number. -/
def skipUnsigned : Reader Unit := do
  match ← peek with
  | some '0' => do
    skip
    if (← peek).any Char.isDigit then failAhead .badNumber
  | _ => do
    skipDigit
    skipDigits
  skipFraction

theorem skipNumber_eq : skipNumber =
    peek >>= fun o => if o = some '-' then skip >>= fun _ => skipUnsigned else skipUnsigned := rfl

theorem passes_digits {x : Char} {c c' : Cursor} {ds : List Char} (hx : c.rest.head? = some x)
    (hdigit : x.isDigit = true) (h : digits c = .ok (ds, c')) :
    (skipDigit >>= fun _ => skipDigits) c = .ok ((), c') := by
  obtain ⟨-, rfl⟩ := Prod.mk.inj (Except.ok.inj h)
  have hany : c.rest.head?.any Char.isDigit = true := by rw [hx]; exact hdigit
  have hskip : skipDigit c = .ok ((), c.tail) := by
    rw [skipDigit, peek_bind, if_pos hany]
    rfl
  rw [bind_of_ok hskip, ← Cursor.dropWhile_tail hany]
  rfl

/-- To round a number takes nothing. -/
theorem of_scaled_ok {negative : Bool} {significand : Nat} {exponent : Int} {c c' : Cursor}
    {n : Number} (h : scaled negative significand exponent c = .ok (n, c')) : c' = c := by
  unfold scaled at h
  cases hs : scale significand exponent with
  | none =>
    rw [hs] at h
    cases h
  | some x =>
    rw [hs] at h
    exact (of_pure_ok h).2

theorem of_integer_ok {negative : Bool} {m : Nat} {c c' : Cursor} {n : Number}
    (h : integer negative m c = .ok (n, c')) : c' = c := by
  unfold integer at h
  split at h
  · exact (of_pure_ok h).2
  · split at h
    · exact (of_pure_ok h).2
    · exact of_scaled_ok h

theorem passes_exponentDigits (negative : Bool) (significand : Nat) (exponent : Int) (down : Bool) :
    (skipDigit >>= fun _ => skipDigits).Passes
      (exponentDigits negative significand exponent down) := by
  intro c n c' h
  rw [exponentDigits, peek_bind] at h
  generalize ho : c.rest.head? = o at h
  cases o with
  | none => cases h
  | some x =>
    dsimp only at h
    split at h
    · cases h
    next hx =>
    have hdigit : x.isDigit = true := by simpa using hx
    obtain ⟨start, d, hget, h⟩ := of_bind_ok h
    obtain ⟨rfl, rfl⟩ := Prod.mk.inj (Except.ok.inj hget)
    obtain ⟨ds, d, hdigits, h⟩ := of_bind_ok h
    have hplace : c' = d := by
      generalize absorb maxExponent 0 ds = absorbed at h
      obtain ⟨given, left⟩ := absorbed
      cases left with
      | nil => exact of_scaled_ok h
      | cons _ _ =>
        dsimp only at h
        split at h
        · cases h
        · exact (of_pure_ok h).2
    rw [hplace]
    exact passes_digits ho hdigit hdigits

theorem passes_exponentPart {negative : Bool} {significand : Nat} {exponent : Int} {c c' : Cursor}
    {n : Number} (he : c.rest.head? = some 'e' ∨ c.rest.head? = some 'E')
    (h : exponentPart negative significand exponent c = .ok (n, c')) :
    skipExponent c = .ok ((), c') := by
  rw [exponentPart_eq, skip_bind, peek_bind] at h
  have hskip : skipExponent c = (peek >>= fun o =>
      if o = some '+' ∨ o = some '-' then skip >>= fun _ => skipDigit >>= fun _ => skipDigits
      else skipDigit >>= fun _ => skipDigits) c.tail := by
    rw [skipExponent, peek_bind]
    rcases he with he | he
    all_goals
      rw [he]
      show (skip >>= fun _ => peek >>= _) c = _
      rw [skip_bind, peek_bind, peek_bind]
      generalize c.tail.rest.head? = o
      split
      · rw [if_pos (.inl rfl)]
      · rw [if_pos (.inr rfl)]
      · next hplus hminus => rw [if_neg (not_or.mpr ⟨hplus, hminus⟩)]
  rw [hskip, peek_bind]
  generalize c.tail.rest.head? = o at h ⊢
  split at h
  · rw [if_pos (.inl rfl)]
    exact passes_exponentDigits _ _ _ _ _ _ _ h
  · rw [if_pos (.inr rfl)]
    exact passes_exponentDigits _ _ _ _ _ _ _ h
  · next hplus hminus =>
    rw [if_neg (not_or.mpr ⟨hplus, hminus⟩)]
    exact passes_exponentDigits _ _ _ _ _ _ _ h

/-- Where no exponent begins, none is passed over. -/
theorem skipExponent_of_ne {c : Cursor} (he : c.rest.head? ≠ some 'e')
    (hE : c.rest.head? ≠ some 'E') : skipExponent c = .ok ((), c) := by
  rw [skipExponent, peek_bind]
  generalize c.rest.head? = o at he hE ⊢
  split
  · exact absurd rfl he
  · exact absurd rfl hE
  · rfl

theorem passes_behindFraction (negative : Bool) (significand : Nat) (exponent : Int) :
    skipExponent.Passes (peek >>= fun
      | some 'e' | some 'E' => exponentPart negative significand exponent
      | _ => scaled negative significand exponent) := by
  intro c n c' h
  rw [peek_bind] at h
  generalize ho : c.rest.head? = o at h
  split at h
  · exact passes_exponentPart (.inl ho) h
  · exact passes_exponentPart (.inr ho) h
  · next he hE =>
    obtain rfl := of_scaled_ok h
    exact skipExponent_of_ne (ho ▸ he) (ho ▸ hE)

theorem passes_fractionPart {negative : Bool} {significand : Nat} {exponent : Int} {c c' : Cursor}
    {n : Number} (h : fractionPart negative significand exponent c = .ok (n, c')) :
    (skipDigit >>= fun _ => skipDigits >>= fun _ => skipExponent) c.tail = .ok ((), c') := by
  rw [fractionPart, skip_bind] at h
  obtain ⟨ds, d, hdigits, h⟩ := of_bind_ok h
  dsimp only at h
  split at h
  · rw [peek_bind] at h
    cases hd : d.rest.head? <;> rw [hd] at h <;> cases h
  next hne =>
  -- Digits were found, so the first character is one.
  obtain ⟨x, hx, hdigit⟩ : ∃ x, c.tail.rest.head? = some x ∧ x.isDigit = true := by
    obtain ⟨rfl, -⟩ := Prod.mk.inj (Except.ok.inj hdigits)
    generalize c.tail.rest = cs at hne
    cases cs with
    | nil => exact absurd rfl hne
    | cons x cs =>
      refine ⟨x, rfl, ?_⟩
      cases hx : x.isDigit with
      | true => rfl
      | false =>
        rw [List.takeWhile_cons, hx] at hne
        exact absurd rfl hne
  have hpast := passes_digits hx hdigit hdigits
  rw [← bind_assoc, bind_of_ok hpast]
  exact passes_behindFraction _ _ _ _ _ _ h

theorem passes_behindWhole (negative : Bool) (significand left : Nat) :
    skipFraction.Passes (behindWhole negative significand left) := by
  intro c n c' h
  rw [behindWhole, peek_bind] at h
  rw [skipFraction, peek_bind]
  generalize ho : c.rest.head? = o at h ⊢
  split at h
  · exact passes_fractionPart h
  · exact passes_exponentPart (.inl ho) h
  · exact passes_exponentPart (.inr ho) h
  · next hpoint he hE =>
    have hplace : c' = c := by
      split at h
      · exact of_integer_ok h
      · exact of_scaled_ok h
    rw [hplace]
    split
    · exact absurd rfl hpoint
    · exact skipExponent_of_ne (ho ▸ he) (ho ▸ hE)

theorem skipUnsigned_of_ne {c : Cursor} (h : c.rest.head? ≠ some '0') :
    skipUnsigned c = (skipDigit >>= fun _ => skipDigits >>= fun _ => skipFraction) c := by
  rw [skipUnsigned, peek_bind]
  generalize c.rest.head? = o at h ⊢
  split
  · exact absurd rfl h
  · rfl

theorem passes_unsigned (negative : Bool) : skipUnsigned.Passes (unsigned negative) := by
  intro c n c' h
  rw [unsigned, peek_bind] at h
  generalize ho : c.rest.head? = o at h
  split at h
  · cases h
  · rw [skip_bind, peek_bind] at h
    rw [skipUnsigned, peek_bind, ho]
    simp only [skip_bind, peek_bind]
    generalize c.tail.rest.head?.any Char.isDigit = another at h ⊢
    cases another with
    | true => cases h
    | false => exact passes_behindWhole _ _ _ _ _ _ h
  · next x hzero =>
    split at h
    · next hdigit =>
      obtain ⟨ds, d, hdigits, h⟩ := of_bind_ok h
      have hpast := passes_digits ho hdigit hdigits
      have hbehind := passes_behindWhole _ _ _ _ _ _ h
      rw [skipUnsigned_of_ne fun heq => hzero (Option.some.inj (ho.symm.trans heq)), ← bind_assoc,
        bind_of_ok hpast]
      exact hbehind
    · cases h

/-- A number is passed over, whatever its size. -/
theorem passes_read : skipNumber.Passes read := by
  intro c n c' h
  rw [read, peek_bind] at h
  rw [skipNumber_eq, peek_bind]
  generalize c.rest.head? = o at h ⊢
  split at h
  · rw [if_pos rfl]
    exact passes_unsigned true _ _ _ h
  · next hminus =>
    rw [if_neg hminus]
    exact passes_unsigned false _ _ _ h

end NumberText

/-! ### Values -/

namespace Skipped

/-- What the machine makes of a leaf, which the reader leaves at `c`: a container is opened. -/
def opened : Document.Leaf → Cursor → Option Frame × Cursor
  | .value _, c => (none, c)
  | .list, c => (some .list, c.tail)
  | .object, c => (some .object, c.tail)

/-- A number is told by its first character. -/
theorem leaf_number {c : Cursor} {x : Char} (hx : (c.dropWhile isSpace).rest.head? = some x)
    (hnumber : (x = '-' || x.isDigit) = true) :
    leaf c = (NumberText.skipNumber >>= fun _ => pure none) (c.dropWhile isSpace) := by
  obtain ⟨-, -, hn, ht, hf, hq, hl, ho⟩ := Document.number_head hnumber
  rw [leaf, peekBehindSpace_bind]
  generalize (c.dropWhile isSpace).rest.head? = o at hx ⊢
  split
  · cases hx
  · exact absurd (Option.some.inj hx).symm hn
  · exact absurd (Option.some.inj hx).symm ht
  · exact absurd (Option.some.inj hx).symm hf
  · exact absurd (Option.some.inj hx).symm hq
  · exact absurd (Option.some.inj hx).symm hl
  · exact absurd (Option.some.inj hx).symm ho
  · obtain rfl := Option.some.inj hx
    rw [if_pos hnumber]

theorem leaf_of_leaf {l : Document.Leaf} {c c' : Cursor} (h : Document.leaf c = .ok (l, c')) :
    leaf c = .ok (opened l c') := by
  obtain ⟨x, hx, hmeets⟩ := Document.meets_of_leaf h
  have hname {ls : List Char} {d : Cursor}
      (h : (skip >>= fun _ => letters ls) d = .ok ((), c')) :
      (skip >>= fun _ => letters ls >>= fun _ => pure (none : Option Frame)) d =
        .ok (none, c') := by
    rw [← bind_assoc, bind_of_ok h]
    rfl
  cases hmeets with
  | null h | true h | false h =>
    rw [leaf, peekBehindSpace_bind, hx]
    exact hname h
  | text h =>
    rw [skip_bind] at h
    rw [leaf, peekBehindSpace_bind, hx]
    show (skip >>= fun _ => Quoted.skipBody >>= fun _ => pure none) _ = _
    rw [skip_bind, bind_of_ok (Quoted.passes_body _ _ _ h)]
    rfl
  | list | object =>
    rw [leaf, peekBehindSpace_bind, hx]
    rfl
  | number hnumber h =>
    rw [leaf_number hx hnumber, bind_of_ok (NumberText.passes_read _ _ _ h)]
    rfl

/-- A quoted text is passed over. -/
theorem scans_of_body {c c' : Cursor} {s : String}
    (hquote : (c.dropWhile isSpace).rest.head? = some '"')
    (h : Quoted.body (c.dropWhile isSpace).tail = .ok (s, c')) : Scans none c c' := by
  refine .leaf ?_
  rw [leaf, peekBehindSpace_bind, hquote]
  show (skip >>= fun _ => Quoted.skipBody >>= fun _ => pure none) _ = _
  rw [skip_bind, bind_of_ok (Quoted.passes_body _ _ _ h)]
  rfl

/-- A null is passed over. -/
theorem scans_of_null {c c' : Cursor} (hn : (c.dropWhile isSpace).rest.head? = some 'n')
    (h : letters ['u', 'l', 'l'] (c.dropWhile isSpace).tail = .ok ((), c')) : Scans none c c' := by
  refine .leaf ?_
  rw [leaf, peekBehindSpace_bind, hn]
  show (skip >>= fun _ => letters ['u', 'l', 'l'] >>= fun _ => pure none) _ = _
  rw [skip_bind, bind_of_ok h]
  rfl

/-- Name and colon lead to the value of a member. -/
theorem lead_of_body {c d e : Cursor} {name : String}
    (hquote : (c.dropWhile isSpace).rest.head? = some '"')
    (hname : Quoted.body (c.dropWhile isSpace).tail = .ok (name, d))
    (hcolon : Container.colon d = .ok ((), e)) : Frame.object.lead c = .ok ((), e) := by
  rw [Frame.lead, peekBehindSpace_bind, hquote]
  show (skip >>= fun _ => Quoted.skipBody >>= fun _ => Container.colon) _ = _
  rw [skip_bind, bind_of_ok (Quoted.passes_body _ _ _ hname)]
  exact hcolon

/-- The loop over the parts of a container passes over what leads to them and over them. -/
theorem scans_of_loop {more : Bool → Reader Bool} {opens : Char → Prop} {frame : Frame}
    {part : σ → Reader σ} {out : σ → β} {loop : Nat → Bool → σ → Reader β}
    (hmore : Container.Walks more opens frame.close)
    (hloop : Container.Loops more part out loop) (hopens : ∀ {x}, opens x → x ≠ frame.close)
    (hpart : ∀ {s c x s' c'}, c.rest.head? = some x → opens x → part s c = .ok (s', c') →
      ∃ d, frame.lead c = .ok ((), d) ∧ Scans none d c')
    {n : Nat} {first : Bool} {s : σ} {c c' : Cursor} {b : β}
    (h : loop n first s c = .ok (b, c')) :
    Scans (some (frame, first)) c (c'.dropWhile isSpace).tail := by
  induction n generalizing first s c with
  | zero => exact absurd h (hloop.zero _ _ _ _)
  | succ n ih =>
    rw [hloop.succ] at h
    obtain ⟨another, d, hanother, h⟩ := of_bind_ok h
    cases another with
    | false =>
      obtain ⟨rfl, hclose⟩ := hmore.of_end hanother
      obtain ⟨-, rfl⟩ := of_pure_ok h
      rw [Cursor.dropWhile_dropWhile]
      exact .close hclose
    | true =>
      rw [if_pos rfl] at h
      obtain ⟨s₁, e, hs₁, hlater⟩ := of_bind_ok h
      cases first with
      | true =>
        obtain ⟨rfl, x, hx, hopen⟩ := hmore.of_begin hanother
        obtain ⟨f, hlead, hvalue⟩ := hpart hx hopen hs₁
        exact .first hx (hopens hopen) hlead hvalue (ih hlater)
      | false =>
        obtain ⟨hcomma, rfl, x, hx, hopen⟩ := hmore.of_goesOn hanother
        obtain ⟨f, hlead, hvalue⟩ := hpart hx hopen hs₁
        obtain ⟨f', hlead', hvalue'⟩ := lead_dropWhile hlead hvalue
        exact .next hcomma hlead' hvalue' (ih hlater)

/-- The items of a list, up to its bracket. -/
theorem scans_of_listBody {item : Reader α} (hitem : value.Passes item) {c d c' : Cursor}
    {as : List α} (h : Container.listBody item c = .ok (as, d))
    (hclose : Container.closeList d = .ok ((), c')) : Scans (some (.list, true)) c c' := by
  obtain ⟨_, _, hget, h⟩ := of_bind_ok h
  obtain ⟨rfl, rfl⟩ := Prod.mk.inj (Except.ok.inj hget)
  obtain ⟨-, rfl⟩ := Container.of_closeList_ok hclose
  refine scans_of_loop Container.walks_hasItem (Container.loops_items item) And.right ?_ h
  intro read c x read' c' _ _ hpart
  obtain ⟨a, ha, -⟩ := of_map_ok hpart
  exact ⟨c, rfl, value_ok_iff.mp (hitem _ _ _ ha)⟩

/-- The members of an object, up to its brace. -/
theorem scans_of_objectBody {step : String → σ → Reader σ}
    (hstep : ∀ {name s c s' c'}, step name s c = .ok (s', c') →
      ∃ d, Container.colon c = .ok ((), d) ∧ Scans none d c')
    {start s : σ} {c d c' : Cursor} (h : Container.objectBody step start c = .ok (s, d))
    (hclose : Container.closeObject d = .ok ((), c')) : Scans (some (.object, true)) c c' := by
  obtain ⟨_, _, hget, h⟩ := of_bind_ok h
  obtain ⟨rfl, rfl⟩ := Prod.mk.inj (Except.ok.inj hget)
  obtain ⟨-, rfl⟩ := Container.of_closeObject_ok hclose
  have hopens {x : Char} (hx : Container.OpensMember x) : x ≠ Frame.object.close := by
    rw [hx]
    decide
  refine scans_of_loop Container.walks_hasMember (Container.loops_members step) hopens ?_ h
  rintro s c _ s' c' hquote rfl hpart
  rw [Container.nextMember, skip_bind] at hpart
  obtain ⟨name, d, hname, hpart⟩ := of_bind_ok hpart
  obtain ⟨e, hcolon, hvalue⟩ := hstep hpart
  have hhere : c.dropWhile isSpace = c := Cursor.dropWhile_of_head hquote rfl
  exact ⟨e, lead_of_body (hhere.symm ▸ hquote) (hhere.symm ▸ hname) hcolon, hvalue⟩

/-- A bracket and what stands behind it. -/
theorem scans_of_opened {l : Document.Leaf} {frame : Frame} {c d c' : Cursor}
    (h : Document.leaf c = .ok (l, d)) (hl : opened l d = (some frame, d.tail))
    (hparts : Scans (some (frame, true)) d.tail c') : Scans none c c' :=
  .container (hl ▸ leaf_of_leaf h) hparts

/-- Whatever is read as a value is passed over. -/
theorem passes_value : ∀ levels : Nat, value.Passes (Document.value levels)
  | 0 => by
    intro c v c' h
    rw [Document.value] at h
    obtain ⟨l, d, hleaf, h⟩ := of_bind_ok h
    cases l with
    | value w =>
      obtain ⟨-, rfl⟩ := of_pure_ok h
      exact value_ok_iff.mpr (.leaf (leaf_of_leaf hleaf))
    | list => cases h
    | object => cases h
  | levels + 1 => by
    have ih := passes_value levels
    intro c v c' h
    rw [Document.value] at h
    obtain ⟨l, d, hleaf, h⟩ := of_bind_ok h
    refine value_ok_iff.mpr ?_
    cases l with
    | value w =>
      obtain ⟨-, rfl⟩ := of_pure_ok h
      exact .leaf (leaf_of_leaf hleaf)
    | list =>
      obtain ⟨vs, e, hbody, h⟩ := of_bind_ok (of_settled_ok h)
      obtain ⟨⟨⟩, f, hclose, h⟩ := of_bind_ok h
      obtain ⟨-, rfl⟩ := of_pure_ok h
      exact scans_of_opened hleaf rfl (scans_of_listBody ih hbody hclose)
    | object =>
      obtain ⟨ms, e, hbody, h⟩ := of_bind_ok (of_settled_ok h)
      obtain ⟨⟨⟩, f, hclose, h⟩ := of_bind_ok h
      obtain ⟨-, rfl⟩ := of_pure_ok h
      refine scans_of_opened hleaf rfl (scans_of_objectBody ?_ hbody hclose)
      intro name ms c ms' c' hstep
      obtain ⟨⟨⟩, d, hcolon, hstep⟩ := of_bind_ok hstep
      obtain ⟨v, hv, -⟩ := of_map_ok hstep
      exact ⟨d, hcolon, value_ok_iff.mp (ih _ _ _ hv)⟩

end Skipped
end Json
end CodeQuality
