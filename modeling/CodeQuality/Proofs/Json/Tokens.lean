import CodeQuality.Proofs.Json.Grammar
import CodeQuality.Proofs.Json.Passing

/-!
# Which texts and numbers are passed over

What is passed over between quotes are the pieces of a quoted text, and as a number the parts of a
number: sign, whole part, fraction and exponent. Each part is passed over if it stands in a
document, and whatever is passed over is such a part.

* `Quoted.reads_skipBody`, `Quoted.of_skipBody_ok` — quoted texts.
* `NumberText.reads_skipNumber`, `NumberText.of_skipNumber_ok` — numbers.
-/

namespace CodeQuality
namespace Json

open Reader

/-- Passing over one of several characters at the cursor. -/
theorem Reader.reads_peek_cons {α : Type} {f : Option Char → Reader α} {x : Char}
    {cs rest : List Char} {a : α} (h : (f (some x)).Reads (x :: cs) rest a) :
    (peek >>= f).Reads (x :: cs) rest a :=
  Reads.bind (s := []) (reads_peek (x :: cs ++ rest)) h

/-! ### Quoted texts -/

namespace Quoted

theorem isSome_hexValue?_iff {c : Char} : (hexValue? c).isSome = true ↔ IsHexDigit c := by
  simp only [hexValue?, IsHexDigit, Bool.and_eq_true, decide_eq_true_eq]
  split
  · next h => exact ⟨fun _ => .inl h, fun _ => rfl⟩
  · next h₁ =>
    split
    · next h => exact ⟨fun _ => .inr (.inl h), fun _ => rfl⟩
    · next h₂ =>
      split
      · next h => exact ⟨fun _ => .inr (.inr h), fun _ => rfl⟩
      · next h₃ => simp [h₁, h₂, h₃]

theorem isSome_unescape?_iff {letter : Char} : (unescape? letter).isSome = true ↔
    letter ∈ ['"', '\\', '/', 'b', 'f', 'n', 'r', 't'] := by
  simp only [unescape?, escapes, List.lookup_cons, List.lookup_nil, List.mem_cons,
    List.not_mem_nil, or_false]
  repeat' split
  all_goals simp_all

/-- Hexadecimal digits are characters of ASCII. -/
theorem utf8Size_of_isHexDigit {c : Char} (h : IsHexDigit c) : c.utf8Size = 1 := by
  rw [Char.utf8Size_eq_one_iff]
  simp only [IsHexDigit, Char.le_def] at h
  have hbound : c.val ≤ 'f'.val := by
    rcases h with ⟨-, h⟩ | ⟨-, h⟩ | ⟨-, h⟩
    · exact UInt32.le_trans h (by decide)
    · exact h
    · exact UInt32.le_trans h (by decide)
  exact UInt32.le_trans hbound (by decide)

theorem reads_hexDigits {x y z w : Char} (h : ∀ c ∈ [x, y, z, w], IsHexDigit c)
    (rest : List Char) : ∃ n, fourDigits.Reads [x, y, z, w] rest n := by
  simp only [List.forall_mem_cons, List.not_mem_nil, false_imp_iff, implies_true, and_true] at h
  obtain ⟨hx, hy, hz, hw⟩ := h
  obtain ⟨a, ha⟩ := Option.isSome_iff_exists.mp (isSome_hexValue?_iff.mpr hx)
  obtain ⟨b, hb⟩ := Option.isSome_iff_exists.mp (isSome_hexValue?_iff.mpr hy)
  obtain ⟨c, hc⟩ := Option.isSome_iff_exists.mp (isSome_hexValue?_iff.mpr hz)
  obtain ⟨d, hd⟩ := Option.isSome_iff_exists.mp (isSome_hexValue?_iff.mpr hw)
  refine ⟨_, reads_digits (x := a) (y := b) (z := c) (w := d) rfl ?_ ?_ rest⟩
  · simp [octetCount, utf8Size_of_isHexDigit, hx, hy, hz, hw]
  · simp [ha, hb, hc, hd]

theorem of_fourDigits_ok {c d : Cursor} {n : Nat} (h : fourDigits c = .ok (n, d)) :
    ∃ x y z w, (∀ c ∈ [x, y, z, w], IsHexDigit c) ∧ c.rest = [x, y, z, w] ++ d.rest := by
  obtain ⟨cs, p⟩ := c
  obtain ⟨_, _, hget, h⟩ := of_bind_ok h
  obtain ⟨rfl, rfl⟩ := Prod.mk.inj (Except.ok.inj hget)
  dsimp only at h
  split at h
  · nomatch h
  generalize hvalues : (cs.take 4).mapM hexValue? = values at h
  match values, h with
  | some [a, b, c', d'], h =>
    obtain ⟨-, rfl⟩ := Prod.mk.inj (Except.ok.inj h)
    match cs, hvalues with
    | x :: y :: z :: w :: cs, hvalues =>
      simp only [List.take_succ_cons, List.take_zero, List.mapM_cons, List.mapM_nil,
        Option.bind_eq_bind, Option.bind_eq_some_iff] at hvalues
      obtain ⟨_, hx, _, ⟨_, hy, _, ⟨_, hz, _, ⟨_, hw, -⟩, -⟩, -⟩, -⟩ := hvalues
      have hdigit {x : Char} {v : Nat} (h : hexValue? x = some v) : IsHexDigit x :=
        isSome_hexValue?_iff.mp (Option.isSome_iff_exists.mpr ⟨v, h⟩)
      refine ⟨x, y, z, w, ?_, rfl⟩
      simp only [List.forall_mem_cons, List.not_mem_nil, false_imp_iff, implies_true, and_true]
      exact ⟨hdigit hx, hdigit hy, hdigit hz, hdigit hw⟩
    | [], hvalues | [_], hvalues | [_, _], hvalues | [_, _, _], hvalues =>
      nomatch length_of_mapM hvalues
  | none, h => nomatch h

/-- A piece is passed over, and the text goes on behind it. -/
theorem reads_skipPiece {p : List Char} (h : IsPiece p) (rest : List Char) :
    skipPiece.Reads p rest false := by
  rw [skipPiece]
  cases h with
  | @self c hquote hslash hcontrol =>
    refine reads_peek_cons ?_
    split
    · next h => cases h
    · next h => exact absurd (Option.some.inj h) hquote
    · next h => exact absurd (Option.some.inj h) hslash
    · next h =>
      obtain rfl := Option.some.inj h
      rw [if_neg (Nat.not_lt.mpr hcontrol)]
      exact Reads.map (fun _ => false) (reads_skip c rest)
  | @escape letter h =>
    refine reads_peek_cons (Reads.bind (s := ['\\']) (reads_skip _ _) (reads_peek_cons ?_))
    have hu : letter ≠ 'u' := by
      rintro rfl
      exact absurd h (by decide)
    split
    · next h => cases h
    · next h => exact absurd (Option.some.inj h) hu
    · next h' =>
      obtain rfl := Option.some.inj h'
      rw [if_pos (isSome_unescape?_iff.mpr h)]
      exact Reads.map (fun _ => false) (reads_skip letter rest)
  | @number x y z w h =>
    obtain ⟨n, hn⟩ := reads_hexDigits h rest
    refine reads_peek_cons (Reads.bind (s := ['\\']) (reads_skip _ _) (reads_peek_cons ?_))
    refine Reads.bind (s := ['u']) (reads_skip _ _) ?_
    exact Reads.bind (t := []) hn (Reads.pure false rest)

theorem reads_skipPieces {cs : List Char} (h : IsQuotedRest cs) {n : Nat} (hn : cs.length ≤ n)
    (rest : List Char) : (skipPieces n).Reads cs rest () := by
  induction h generalizing n with
  | close =>
    obtain ⟨n, rfl⟩ : ∃ m, n = m + 1 := ⟨n - 1, by simp at hn; omega⟩
    rw [skipPieces]
    refine Reads.bind (s := ['"']) (t := []) (a := true) ?_ (Reads.pure () rest)
    rw [skipPiece]
    exact reads_peek_cons (Reads.map (fun _ => true) (reads_skip '"' rest))
  | @piece p cs hp _ ih =>
    -- A piece has one character at least, and that is worth one round.
    have hlength : 0 < p.length := by cases hp <;> simp
    rw [List.length_append] at hn
    obtain ⟨n, rfl⟩ : ∃ m, n = m + 1 := ⟨n - 1, by omega⟩
    rw [skipPieces]
    exact Reads.bind (reads_skipPiece hp (cs ++ rest)) (ih (by omega))

/-- A quoted text is passed over from behind its opening quote on. -/
theorem reads_skipBody {cs : List Char} (h : IsQuotedRest cs) (rest : List Char) :
    skipBody.Reads cs rest () := by
  refine Reads.get_bind fun p => reads_skipPieces h ?_ rest
  rw [List.length_append]
  exact Nat.le_add_right _ _

/-- What is passed over as a piece is one, or the quote that closes the text. -/
theorem of_skipPiece_ok {c d : Cursor} {closed : Bool} (h : skipPiece c = .ok (closed, d)) :
    ∃ p, c.rest = p ++ d.rest ∧ if closed then p = ['"'] else IsPiece p := by
  rw [skipPiece] at h
  obtain ⟨o, c, ho, h⟩ := of_bind_ok h
  obtain ⟨rfl, rfl⟩ := Prod.mk.inj (Except.ok.inj ho)
  generalize ho : c.rest.head? = o at h
  split at h
  · cases h
  · obtain ⟨e, he, h⟩ := of_skip_ok ho h
    obtain ⟨rfl, rfl⟩ := of_pure_ok h
    exact ⟨['"'], he, rfl⟩
  · obtain ⟨e, he, h⟩ := of_skip_ok ho h
    rw [peek_bind] at h
    generalize ho' : e.rest.head? = o' at h
    split at h
    · cases h
    · obtain ⟨f, hf, h⟩ := of_skip_ok ho' h
      obtain ⟨n, g, hdigits, h⟩ := of_bind_ok h
      obtain ⟨rfl, rfl⟩ := of_pure_ok h
      obtain ⟨x, y, z, w, hhex, htext⟩ := of_fourDigits_ok hdigits
      refine ⟨['\\', 'u', x, y, z, w], ?_, .number hhex⟩
      rw [he, hf, htext]
      rfl
    · next letter _ =>
      split at h
      · next hknown =>
        obtain ⟨f, hf, h⟩ := of_skip_ok ho' h
        obtain ⟨rfl, rfl⟩ := of_pure_ok h
        refine ⟨['\\', letter], ?_, .escape (isSome_unescape?_iff.mp hknown)⟩
        rw [he, hf]
        rfl
      · cases h
  · next x hquote hslash =>
    split at h
    · cases h
    · next hcontrol =>
      obtain ⟨e, he, h⟩ := of_skip_ok ho h
      obtain ⟨rfl, rfl⟩ := of_pure_ok h
      refine ⟨[x], he, .self ?_ ?_ (Nat.not_lt.mp hcontrol)⟩
      · rintro rfl
        exact hquote rfl
      · rintro rfl
        exact hslash rfl

theorem of_skipPieces_ok {n : Nat} {c d : Cursor} (h : skipPieces n c = .ok ((), d)) :
    ∃ cs, IsQuotedRest cs ∧ c.rest = cs ++ d.rest := by
  induction n generalizing c with
  | zero => cases h
  | succ n ih =>
    rw [skipPieces] at h
    obtain ⟨closed, e, hpiece, h⟩ := of_bind_ok h
    obtain ⟨p, htext, hp⟩ := of_skipPiece_ok hpiece
    cases closed with
    | true =>
      obtain ⟨-, rfl⟩ := of_pure_ok h
      obtain rfl : p = ['"'] := hp
      exact ⟨['"'], .close, htext⟩
    | false =>
      obtain ⟨cs, hcs, hrest⟩ := ih h
      exact ⟨p ++ cs, .piece hp hcs, by rw [htext, hrest, List.append_assoc]⟩

/-- What is passed over behind an opening quote is the rest of a quoted text. -/
theorem of_skipBody_ok {c d : Cursor} (h : skipBody c = .ok ((), d)) :
    ∃ cs, IsQuotedRest cs ∧ c.rest = cs ++ d.rest := by
  obtain ⟨_, _, hget, h⟩ := of_bind_ok h
  obtain ⟨rfl, rfl⟩ := Prod.mk.inj (Except.ok.inj hget)
  exact of_skipPieces_ok h

end Quoted

/-! ### Numbers -/

namespace NumberText

/-- The cursor is in front of no digit. -/
def NoDigit (rest : List Char) : Prop := ∀ c ∈ rest.head?, c.isDigit = false

theorem noDigit_of_stops {rest : List Char} (h : Stops rest) : NoDigit rest :=
  fun c hc => (isDigit_of_stops h c hc).1

theorem noDigit_dropWhile (cs : List Char) : NoDigit (cs.dropWhile Char.isDigit) := by
  intro c hc
  have hhead := List.head?_dropWhile_not Char.isDigit cs
  rw [hc] at hhead
  exact hhead

theorem any_isDigit_of_noDigit {rest : List Char} (h : NoDigit rest) :
    rest.head?.any Char.isDigit = false := by
  cases rest with
  | nil => rfl
  | cons c rest => exact h c rfl

/-- One digit at least, and all that follow. -/
abbrev skipSomeDigits : Reader Unit := skipDigit >>= fun _ => skipDigits

theorem reads_skipSomeDigits {ds rest : List Char} (h : IsDigits ds) (hr : NoDigit rest) :
    skipSomeDigits.Reads ds rest () := by
  obtain ⟨hne, hd⟩ := h
  obtain ⟨x, ds, rfl⟩ := List.exists_cons_of_ne_nil hne
  intro p
  exact passes_digits rfl (hd x List.mem_cons_self) (reads_digits hd hr p)

theorem of_skipSomeDigits_ok {c d : Cursor} (h : skipSomeDigits c = .ok ((), d)) :
    ∃ ds, IsDigits ds ∧ c.rest = ds ++ d.rest ∧ NoDigit d.rest := by
  obtain ⟨⟨⟩, e, hdigit, h⟩ := of_bind_ok h
  obtain rfl : e.dropWhile Char.isDigit = d := (Prod.mk.inj (Except.ok.inj h)).2
  rw [skipDigit, peek_bind] at hdigit
  split at hdigit
  · next hany =>
    obtain ⟨-, rfl⟩ := Prod.mk.inj (Except.ok.inj hdigit)
    rw [Cursor.dropWhile_tail hany]
    refine ⟨c.rest.takeWhile Char.isDigit, ⟨?_, ?_⟩, List.takeWhile_append_dropWhile.symm,
      noDigit_dropWhile c.rest⟩
    · cases hc : c.rest with
      | nil => rw [hc] at hany; cases hany
      | cons x cs =>
        have hx : x.isDigit = true := by rw [hc] at hany; exact hany
        rw [List.takeWhile_cons, if_pos hx]
        exact List.cons_ne_nil _ _
    · exact fun x hx => List.all_eq_true.mp List.all_takeWhile x hx
  · cases hdigit

/-- What stands behind the letter of an exponent: a sign or none, and digits. -/
def skipExponentDigits : Reader Unit := peek >>= fun o =>
  if o = some '+' ∨ o = some '-' then skip >>= fun _ => skipSomeDigits else skipSomeDigits

theorem skipExponent_eq {c : Cursor} {x : Char} (hx : c.rest.head? = some x)
    (he : x = 'e' ∨ x = 'E') : skipExponent c = skipExponentDigits c.tail := by
  rw [skipExponent, peek_bind, hx, skipExponentDigits, peek_bind]
  -- Both letters lead on to the same sign.
  rcases he with rfl | rfl
  all_goals
    refine (skip_bind _ c).trans ?_
    rw [peek_bind]
    generalize c.tail.rest.head? = o
    split
    · rw [if_pos (.inl rfl)]
    · rw [if_pos (.inr rfl)]
    · next hplus hminus => rw [if_neg (not_or.mpr ⟨hplus, hminus⟩)]

theorem reads_skipExponent {cs rest : List Char} (h : IsExponent cs) (hr : Stops rest) :
    skipExponent.Reads cs rest () := by
  intro p
  rcases h with rfl | ⟨letter, sign, ds, hletter, hsign, hds, rfl⟩
  · have hstops := isDigit_of_stops hr
    rw [skipExponent_of_ne (fun h => (hstops _ h).2.2.1 rfl) fun h => (hstops _ h).2.2.2 rfl]
    rfl
  · have hdigits := reads_skipSomeDigits hds (noDigit_of_stops hr)
    have hread : skipExponentDigits.Reads (sign ++ ds) rest () := by
      rw [skipExponentDigits]
      rcases hsign with rfl | rfl | rfl
      · obtain ⟨x, ds, rfl⟩ := List.exists_cons_of_ne_nil hds.1
        refine reads_peek_cons ?_
        have hx := hds.2 x List.mem_cons_self
        rw [if_neg]
        · exact hdigits
        · rintro (h | h) <;> obtain rfl := Option.some.inj h <;> exact absurd hx (by decide)
      · exact reads_peek_cons (Reads.bind (s := ['+']) (reads_skip _ _) hdigits)
      · exact reads_peek_cons (Reads.bind (s := ['-']) (reads_skip _ _) hdigits)
    rw [skipExponent_eq (x := letter) rfl hletter]
    exact hread (p.behind letter)

theorem of_skipExponent_ok {c d : Cursor} (h : skipExponent c = .ok ((), d)) :
    ∃ cs, IsExponent cs ∧ c.rest = cs ++ d.rest := by
  by_cases he : c.rest.head? = some 'e' ∨ c.rest.head? = some 'E'
  · obtain ⟨x, hx, hletter⟩ : ∃ x, c.rest.head? = some x ∧ (x = 'e' ∨ x = 'E') :=
      he.elim (fun h => ⟨_, h, .inl rfl⟩) fun h => ⟨_, h, .inr rfl⟩
    rw [skipExponent_eq hx hletter] at h
    obtain ⟨e, he, h⟩ := of_skip_ok (f := fun _ => skipExponentDigits) hx h
    rw [skipExponentDigits, peek_bind] at h
    split at h
    · next hsign =>
      obtain ⟨y, hy, hsign⟩ : ∃ y, e.rest.head? = some y ∧ (y = '+' ∨ y = '-') :=
        hsign.elim (fun h => ⟨_, h, .inl rfl⟩) fun h => ⟨_, h, .inr rfl⟩
      obtain ⟨f, hf, h⟩ := of_skip_ok hy h
      obtain ⟨ds, hds, hrest, -⟩ := of_skipSomeDigits_ok h
      refine ⟨x :: ([y] ++ ds), .inr ⟨x, [y], ds, hletter, ?_, hds, rfl⟩, ?_⟩
      · rcases hsign with rfl | rfl
        · exact .inr (.inl rfl)
        · exact .inr (.inr rfl)
      · rw [he, hf, hrest]
        rfl
    · obtain ⟨ds, hds, hrest, -⟩ := of_skipSomeDigits_ok h
      exact ⟨x :: ([] ++ ds), .inr ⟨x, [], ds, hletter, .inl rfl, hds, rfl⟩, by rw [he, hrest]; rfl⟩
  · rw [not_or] at he
    rw [skipExponent_of_ne he.1 he.2] at h
    obtain ⟨-, rfl⟩ := Prod.mk.inj (Except.ok.inj h)
    exact ⟨[], .inl rfl, rfl⟩

/-- A fraction ends where its exponent begins. -/
theorem noDigit_exponent {cs rest : List Char} (h : IsExponent cs) (hr : Stops rest) :
    NoDigit (cs ++ rest) := by
  rcases h with rfl | ⟨letter, sign, ds, hletter, -, -, rfl⟩
  · exact noDigit_of_stops hr
  · intro c hc
    obtain rfl := Option.some.inj hc
    rcases hletter with rfl | rfl <;> rfl

/-- A whole part ends where its fraction or its exponent begins. -/
theorem noDigit_fraction {fraction exponent rest : List Char} (hf : IsFraction fraction)
    (he : IsExponent exponent) (hr : Stops rest) : NoDigit (fraction ++ exponent ++ rest) := by
  rcases hf with rfl | ⟨ds, -, rfl⟩
  · exact noDigit_exponent he hr
  · intro c hc
    obtain rfl := Option.some.inj hc
    rfl

theorem skipFraction_of_ne {c : Cursor} (h : c.rest.head? ≠ some '.') :
    skipFraction c = skipExponent c := by
  rw [skipFraction, peek_bind]
  generalize c.rest.head? = o at h ⊢
  split
  · exact absurd rfl h
  · rfl

theorem reads_skipFraction {fraction exponent rest : List Char} (hf : IsFraction fraction)
    (he : IsExponent exponent) (hr : Stops rest) :
    skipFraction.Reads (fraction ++ exponent) rest () := by
  rcases hf with rfl | ⟨ds, hds, rfl⟩
  · intro p
    have hpoint : (exponent ++ rest).head? ≠ some '.' := by
      rcases he with rfl | ⟨letter, _, _, hletter, -, -, rfl⟩
      · exact fun h => (isDigit_of_stops hr _ h).2.1 rfl
      · intro h
        obtain rfl := Option.some.inj h
        rcases hletter with h | h <;> cases h
    have hread := reads_skipExponent he hr p
    rw [← skipFraction_of_ne hpoint] at hread
    exact hread
  · rw [skipFraction]
    refine reads_peek_cons (Reads.bind (s := ['.']) (reads_skip _ _) ?_)
    have hread := Reads.bind (f := fun _ => skipExponent)
      (reads_skipSomeDigits hds (noDigit_exponent he hr)) (reads_skipExponent he hr)
    rwa [bind_assoc] at hread

theorem of_skipFraction_ok {c d : Cursor} (h : skipFraction c = .ok ((), d)) :
    ∃ fraction exponent, IsFraction fraction ∧ IsExponent exponent ∧
      c.rest = fraction ++ (exponent ++ d.rest) := by
  by_cases hpoint : c.rest.head? = some '.'
  · rw [skipFraction, peek_bind, hpoint] at h
    obtain ⟨e, he, h⟩ := of_skip_ok hpoint h
    rw [← bind_assoc] at h
    obtain ⟨⟨⟩, f, hdigits, h⟩ := of_bind_ok h
    obtain ⟨ds, hds, hrest, -⟩ := of_skipSomeDigits_ok hdigits
    obtain ⟨exponent, hexponent, hend⟩ := of_skipExponent_ok h
    exact ⟨'.' :: ds, exponent, .inr ⟨ds, hds, rfl⟩, hexponent, by rw [he, hrest, hend]; rfl⟩
  · rw [skipFraction_of_ne hpoint] at h
    obtain ⟨exponent, hexponent, hend⟩ := of_skipExponent_ok h
    exact ⟨[], exponent, .inl rfl, hexponent, hend⟩

theorem reads_skipUnsigned {whole fraction exponent rest : List Char} (hw : IsWhole whole)
    (hf : IsFraction fraction) (he : IsExponent exponent) (hr : Stops rest) :
    skipUnsigned.Reads (whole ++ (fraction ++ exponent)) rest () := by
  have hbehind := noDigit_fraction hf he hr
  have hfraction := reads_skipFraction hf he hr
  rcases hw with rfl | ⟨hds, hzero⟩
  · rw [skipUnsigned]
    refine reads_peek_cons (Reads.bind (s := ['0']) (reads_skip _ _) ?_)
    refine Reads.bind (s := []) (reads_peek (fraction ++ exponent ++ rest)) ?_
    rw [any_isDigit_of_noDigit hbehind]
    exact hfraction
  · intro p
    have hread := Reads.bind (f := fun _ => skipFraction) (reads_skipSomeDigits hds hbehind)
      hfraction p
    obtain ⟨x, ds, rfl⟩ := List.exists_cons_of_ne_nil hds.1
    rw [bind_assoc] at hread
    rw [skipUnsigned_of_ne hzero]
    exact hread

theorem of_skipUnsigned_ok {c d : Cursor} (h : skipUnsigned c = .ok ((), d)) :
    ∃ whole fraction exponent, IsWhole whole ∧ IsFraction fraction ∧ IsExponent exponent ∧
      c.rest = whole ++ (fraction ++ (exponent ++ d.rest)) := by
  by_cases hzero : c.rest.head? = some '0'
  · rw [skipUnsigned, peek_bind, hzero] at h
    obtain ⟨e, he, h⟩ := of_skip_ok hzero h
    rw [peek_bind] at h
    split at h
    · cases h
    · obtain ⟨fraction, exponent, hf, hx, hrest⟩ := of_skipFraction_ok h
      exact ⟨['0'], fraction, exponent, .inl rfl, hf, hx, by rw [he, hrest]; rfl⟩
  · rw [skipUnsigned_of_ne hzero, ← bind_assoc] at h
    obtain ⟨⟨⟩, e, hdigits, h⟩ := of_bind_ok h
    obtain ⟨ds, hds, hrest, -⟩ := of_skipSomeDigits_ok hdigits
    obtain ⟨fraction, exponent, hf, hx, hend⟩ := of_skipFraction_ok h
    refine ⟨ds, fraction, exponent, .inr ⟨hds, ?_⟩, hf, hx, by rw [hrest, hend]⟩
    obtain ⟨x, ds, rfl⟩ := List.exists_cons_of_ne_nil hds.1
    rw [hrest] at hzero
    exact hzero

/-- A number is passed over in front of whatever may follow a value. -/
theorem reads_skipNumber {cs rest : List Char} (h : IsNumber cs) (hr : Stops rest) :
    skipNumber.Reads cs rest () := by
  obtain ⟨sign, whole, fraction, exponent, hsign, hw, hf, he, rfl⟩ := h
  have hread := reads_skipUnsigned hw hf he hr
  rw [skipNumber_eq]
  rcases hsign with rfl | rfl
  · refine Reads.bind (s := []) (reads_peek _) ?_
    rw [if_neg]
    · exact hread
    · rcases hw with rfl | ⟨hds, -⟩
      · exact fun h => nomatch h
      · obtain ⟨x, ds, rfl⟩ := List.exists_cons_of_ne_nil hds.1
        intro h
        obtain rfl := Option.some.inj h
        exact absurd (hds.2 _ List.mem_cons_self) (by decide)
  · exact reads_peek_cons (Reads.bind (s := ['-']) (reads_skip _ _) hread)

/-- What is passed over as a number is one. -/
theorem of_skipNumber_ok {c d : Cursor} (h : skipNumber c = .ok ((), d)) :
    ∃ cs, IsNumber cs ∧ c.rest = cs ++ d.rest := by
  rw [skipNumber_eq, peek_bind] at h
  split at h
  · next hminus =>
    obtain ⟨e, he, h⟩ := of_skip_ok hminus h
    obtain ⟨whole, fraction, exponent, hw, hf, hx, hrest⟩ := of_skipUnsigned_ok h
    refine ⟨_, ⟨['-'], whole, fraction, exponent, .inr rfl, hw, hf, hx, rfl⟩, ?_⟩
    rw [he, hrest]
    simp only [List.append_assoc, List.cons_append, List.nil_append]
  · obtain ⟨whole, fraction, exponent, hw, hf, hx, hrest⟩ := of_skipUnsigned_ok h
    refine ⟨_, ⟨[], whole, fraction, exponent, .inl rfl, hw, hf, hx, rfl⟩, ?_⟩
    rw [hrest]
    simp only [List.append_assoc, List.nil_append]

end NumberText
end Json
end CodeQuality
