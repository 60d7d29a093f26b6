import CodeQuality.Json.Document
import CodeQuality.Proofs.Json.Local
import CodeQuality.Proofs.Json.NumberText
import CodeQuality.Proofs.Json.Quoted
import CodeQuality.Proofs.Steps

/-!
# What texts and numbers take

A text ends with its quote, whatever follows it, and a number ends in front of whatever may follow a
value. So neither depends on more of a document than it takes.

* `Quoted.takes_body`, `Quoted.takes_skipBody` — texts.
* `NumberText.takes_read`, `NumberText.takes_skipNumber` — numbers.
-/

namespace CodeQuality
namespace Json

open Reader

/-! ### Texts -/

namespace Quoted

theorem takes_fourDigits : Takes Anywhere fourDigits := by
  intro o c n c' hc h
  obtain ⟨cs, p⟩ := c
  obtain ⟨_, _, hget, h⟩ := of_bind_ok h
  obtain ⟨rfl, rfl⟩ := Prod.mk.inj (Except.ok.inj hget)
  dsimp only at h
  split at h
  · nomatch h
  next hcount =>
  generalize hvalues : (cs.take 4).mapM hexValue? = values at h
  match values, h with
  | some [x, y, z, w], h =>
    obtain ⟨rfl, rfl⟩ := Prod.mk.inj (Except.ok.inj h)
    have hlength : (cs.take 4).length = 4 := (length_of_mapM hvalues).symm
    refine ⟨cs.take 4, List.ne_nil_of_length_eq_add_one hlength,
      (List.take_append_drop 4 cs).symm, fun rest _ => ?_⟩
    exact reads_digits hlength hcount hvalues rest
  | none, h => nomatch h

theorem takes_behindSurrogate (x : Char) : Takes Anywhere (behindSurrogate x) := by
  intro o
  rw [behindSurrogate]
  refine TakesAt.peek ?_
  split
  · exact TakesAt.failHere _
  · split
    · exact TakesAt.skip _
    · exact TakesAt.failAhead _

theorem takes_numbered : Takes Anywhere numbered := by
  rw [numbered]
  refine Takes.bind takes_fourDigits fun n => ?_
  dsimp only
  split
  · split <;> exact fun _ => (TakesAt.failHere_bind _ _).localAt
  · split
    · refine (takes_behindSurrogate _).local.bind fun _ => ?_
      refine (takes_behindSurrogate _).local.bind fun _ => ?_
      refine takes_fourDigits.local.bind fun m => ?_
      split
      · exact Local.pure _
      · exact fun _ => (TakesAt.failHere _).localAt
    · exact Local.pure _

theorem takes_piece : Takes Anywhere piece := by
  intro o
  rw [piece]
  refine TakesAt.peek ?_
  split
  · exact TakesAt.failHere _
  · exact TakesAt.behind (Local.pure _)
  · refine TakesAt.behind fun o => (TakesAt.peek ?_).localAt
    split
    · exact TakesAt.failHere _
    · refine TakesAt.behind (Local.bind takes_numbered.local fun c => Local.pure _)
    · split
      · exact TakesAt.behind (Local.pure _)
      · exact TakesAt.failAhead _
  · split
    · exact TakesAt.failAhead _
    · exact TakesAt.behind (Local.pure _)

/-- Every step of a text takes up a piece, and so there is room for all of them. -/
theorem took_pieces {fuel : Nat} {read cs : List Char} {c c' : Cursor}
    (h : pieces fuel read c = .ok (cs, c')) : ∃ used, used ≠ [] ∧
      ∀ fuel, used.length ≤ fuel → Took Anywhere (pieces fuel read) c cs c' used := by
  refine took_of_takes pieces (fun read => piece >>= fun x =>
    pure (x.elim (.inr read.reverse) fun c => .inl (c :: read))) ?_ ?_ ?_ h
  · exact fun read c r => failHere_ne_ok _ c r
  · intro n read
    rw [pieces, bind_assoc]
    congr
    funext x
    cases x <;> rfl
  · intro read
    refine takes_piece.bind fun x => ?_
    cases x <;> exact Local.pure _

theorem takes_body : Takes Anywhere body := by
  intro o c s c' hc h
  obtain ⟨_, _, hget, h⟩ := of_bind_ok h
  obtain ⟨rfl, rfl⟩ := Prod.mk.inj (Except.ok.inj hget)
  obtain ⟨cs, d, hcs, h⟩ := of_bind_ok h
  obtain ⟨rfl, rfl⟩ := Prod.mk.inj (Except.ok.inj h)
  obtain ⟨used, hne, hused⟩ := took_pieces hcs
  refine ⟨used, hne, (hused _ (Nat.le_refl _)).text, fun rest hrest => ?_⟩
  refine Reads.get_bind fun p => Reads.map String.ofList ((hused _ ?_).reads rest hrest)
  rw [List.length_append]
  exact Nat.le_add_right _ _

/-! ### Texts that are passed over -/

theorem takes_skipPiece : Takes Anywhere skipPiece := by
  intro o
  rw [skipPiece]
  refine TakesAt.peek ?_
  split
  · exact TakesAt.failHere _
  · exact TakesAt.behind (Local.pure _)
  · refine TakesAt.behind fun o => (TakesAt.peek ?_).localAt
    split
    · exact TakesAt.failHere _
    · exact TakesAt.behind (takes_fourDigits.local.bind fun _ => Local.pure _)
    · split
      · exact TakesAt.behind (Local.pure _)
      · exact TakesAt.failAhead _
  · split
    · exact TakesAt.failHere _
    · exact TakesAt.behind (Local.pure _)

theorem took_skipPieces {fuel : Nat} {c c' : Cursor} {u : Unit}
    (h : skipPieces fuel c = .ok (u, c')) : ∃ used, used ≠ [] ∧
      ∀ fuel, used.length ≤ fuel → Took Anywhere (skipPieces fuel) c u c' used := by
  refine took_of_takes (s := ()) (fun fuel _ => skipPieces fuel)
    (fun _ => skipPiece >>= fun closed => pure (if closed then .inr () else .inl ())) ?_ ?_ ?_ h
  · exact fun _ _ _ h => nomatch h
  · intro n _
    rw [skipPieces, bind_assoc]
    congr
    funext closed
    cases closed <;> rfl
  · exact fun _ => takes_skipPiece.bind fun _ => Local.pure _

theorem takes_skipBody : Takes Anywhere skipBody := by
  intro o c u c' hc h
  obtain ⟨_, _, hget, h⟩ := of_bind_ok h
  obtain ⟨rfl, rfl⟩ := Prod.mk.inj (Except.ok.inj hget)
  obtain ⟨used, hne, hused⟩ := took_skipPieces h
  refine ⟨used, hne, (hused _ (Nat.le_refl _)).text, fun rest hrest => ?_⟩
  refine Reads.get_bind fun p => (hused _ ?_).reads rest hrest
  rw [List.length_append]
  exact Nat.le_add_right _ _

end Quoted

/-! ### Numbers -/

namespace NumberText

/-- Digits end in front of whatever may follow a value. -/
theorem local_digits : Local Stops digits := by
  intro o c ds c' hc h
  obtain ⟨rfl, rfl⟩ := Prod.mk.inj (Except.ok.inj h)
  refine ⟨c.rest.takeWhile Char.isDigit, List.takeWhile_append_dropWhile.symm, ?_⟩
  intro rest hrest
  refine reads_digits (fun x hx => List.all_eq_true.mp List.all_takeWhile x hx) ?_
  rcases hrest with hrest | hrest
  · rw [hrest]
    intro x hx
    have hhead := List.head?_dropWhile_not Char.isDigit c.rest
    have hx : (c.rest.dropWhile Char.isDigit).head? = some x := hx
    rw [hx] at hhead
    exact hhead
  · exact fun x hx => (isDigit_of_stops hrest x hx).1

theorem local_scaled (negative : Bool) (significand : Nat) (exponent : Int) :
    Local Anywhere (scaled negative significand exponent) := by
  rw [scaled]
  split
  · exact Local.pure _
  · exact fun _ => (TakesAt.failHere _).localAt

/-- The digits of an exponent behind its sign. -/
def exponentDigits (negative : Bool) (significand : Nat) (exponent : Int) (down : Bool) :
    Reader Number := do
  match ← peek with
  | none => failHere .endInValue
  | some c => if !c.isDigit then failAhead .badNumber
  let start ← get
  let ds ← digits
  match absorb maxExponent 0 ds with
  | (n, []) => scaled negative significand (if down then exponent - n else exponent + n)
  | (_, left) =>
    if significand ≠ 0 && !down then do
      set (start.drop (ds.length - left.length + 1))
      failHere .numberTooLarge
    else return .float ⟨negative, 0, Binary64.minExponent⟩

theorem exponentPart_eq (negative : Bool) (significand : Nat) (exponent : Int) :
    exponentPart negative significand exponent = skip >>= fun _ => peek >>= fun
      | some '+' => skip >>= fun _ => exponentDigits negative significand exponent false
      | some '-' => skip >>= fun _ => exponentDigits negative significand exponent true
      | _ => exponentDigits negative significand exponent false := by
  rfl

theorem takesAt_digits {x : Char} (hx : x.isDigit = true) : TakesAt (some x) Stops digits := by
  intro c ds c' hc h
  obtain ⟨used, hused⟩ := local_digits _ c ds c' hc h
  refine ⟨used, ?_, hused⟩
  rintro rfl
  obtain ⟨-, rfl⟩ := Prod.mk.inj (Except.ok.inj h)
  have hhead := List.head?_dropWhile_not Char.isDigit c.rest
  have htext : c.rest = c.rest.dropWhile Char.isDigit := hused.text
  rw [← htext, hc] at hhead
  nomatch hx.symm.trans hhead

theorem takes_exponentDigits (negative : Bool) (significand : Nat) (exponent : Int) (down : Bool) :
    Takes Stops (exponentDigits negative significand exponent down) := by
  intro o
  rw [exponentDigits]
  refine TakesAt.peek ?_
  dsimp only
  split
  · exact TakesAt.failHere_bind _ _
  next x =>
  split
  · exact TakesAt.failAhead_bind _ _
  next hx =>
  have hx : x.isDigit = true := by simpa using hx
  refine TakesAt.get_bind (fun start => (takesAt_digits hx).bind fun ds => ?_) ?_
  · split
    · exact (local_scaled _ _ _).anywhere
    · split
      · exact fun _ _ _ _ _ h => nomatch h
      · exact Local.pure _
  · intro start start' c b c' h
    obtain ⟨ds, d, hds, h⟩ := of_bind_ok h
    rw [bind_of_ok hds]
    -- The cursor is needed only for the place of a failure.
    generalize absorb maxExponent 0 ds = absorbed at h ⊢
    match absorbed, h with
    | (_, []), h => exact h
    | (_, y :: left), h =>
      dsimp only at h ⊢
      split at h
      · nomatch h
      · next hzero => rwa [if_neg hzero]

theorem takes_exponentPart {x : Char} (negative : Bool) (significand : Nat) (exponent : Int) :
    TakesAt (some x) Stops (exponentPart negative significand exponent) := by
  rw [exponentPart_eq]
  refine TakesAt.behind fun o => (TakesAt.peek ?_).localAt
  split
  · exact TakesAt.behind (takes_exponentDigits _ _ _ _).local
  · exact TakesAt.behind (takes_exponentDigits _ _ _ _).local
  · exact takes_exponentDigits _ _ _ _ _

/-- What follows digits goes on with the number only if it begins with a certain letter. -/
theorem local_behindFraction (negative : Bool) (significand : Nat) (exponent : Int) :
    Local Stops (peek >>= fun
      | some 'e' | some 'E' => exponentPart negative significand exponent
      | _ => scaled negative significand exponent) := by
  refine Local.peek (local_scaled negative significand exponent).anywhere ?_ fun o => ?_
  · intro rest hrest
    have hstops := isDigit_of_stops hrest
    split
    · next he => exact absurd rfl (hstops _ he).2.2.1
    · next he => exact absurd rfl (hstops _ he).2.2.2
    · rfl
  · split
    · exact .inl (takes_exponentPart _ _ _)
    · exact .inl (takes_exponentPart _ _ _)
    · exact .inr rfl

theorem takes_fractionPart {x : Char} (negative : Bool) (significand : Nat) (exponent : Int) :
    TakesAt (some x) Stops (fractionPart negative significand exponent) := by
  rw [fractionPart]
  refine TakesAt.behind (local_digits.bind fun ds => ?_)
  dsimp only
  split
  · intro o
    refine (TakesAt.peek ?_).localAt
    split
    · exact TakesAt.failHere_bind _ _
    · exact TakesAt.failAhead_bind _ _
  · exact local_behindFraction _ _ _

theorem local_integer (negative : Bool) (n : Nat) : Local Anywhere (integer negative n) := by
  rw [integer]
  split
  · exact Local.pure _
  · split
    · exact Local.pure _
    · exact local_scaled _ _ _

theorem local_behindWhole (negative : Bool) (significand left : Nat) :
    Local Stops (behindWhole negative significand left) := by
  have hdefault : Local Anywhere
      (if left = 0 then integer negative significand else scaled negative significand left) := by
    split
    · exact local_integer _ _
    · exact local_scaled _ _ _
  refine Local.peek hdefault.anywhere ?_ fun o => ?_
  · intro rest hrest
    have hstops := isDigit_of_stops hrest
    split
    · next he => exact absurd rfl (hstops _ he).2.1
    · next he => exact absurd rfl (hstops _ he).2.2.1
    · next he => exact absurd rfl (hstops _ he).2.2.2
    · rfl
  · split
    · exact .inl (takes_fractionPart _ _ _)
    · exact .inl (takes_exponentPart _ _ _)
    · exact .inl (takes_exponentPart _ _ _)
    · exact .inr rfl

/-- No digit may follow a zero. -/
theorem local_behindZero {α : Type} {next : Reader α} (h : Local Stops next) :
    Local Stops (peek >>= fun o =>
      if o.any Char.isDigit then failAhead .badNumber >>= fun _ : Unit => next else next) := by
  refine Local.peek h ?_ fun o => ?_
  · intro rest hrest
    rw [any_isDigit_of_stops hrest]
    rfl
  · split
    · exact .inl (TakesAt.failAhead_bind _ _)
    · exact .inr rfl

theorem takes_unsigned (negative : Bool) : Takes Stops (unsigned negative) := by
  intro o
  rw [unsigned]
  refine TakesAt.peek ?_
  split
  · exact TakesAt.failHere _
  · exact TakesAt.behind (local_behindZero (local_behindWhole _ _ _))
  · split
    · next hx => exact (takesAt_digits hx).bind fun ds => local_behindWhole _ _ _
    · exact TakesAt.failAhead _

theorem takes_read : Takes Stops read := by
  intro o
  rw [read]
  refine TakesAt.peek ?_
  split
  · exact TakesAt.behind (takes_unsigned true).local
  · exact takes_unsigned false _

/-! ### Numbers that are passed over -/

theorem local_skipDigits : Local Stops skipDigits := by
  intro o c u c' hc h
  obtain ⟨-, rfl⟩ := Prod.mk.inj (Except.ok.inj h)
  obtain ⟨used, htext, hreads⟩ := local_digits o c _ _ hc rfl
  refine ⟨used, htext, fun rest hrest p => ?_⟩
  obtain ⟨-, hcursor⟩ := Prod.mk.inj (Except.ok.inj (hreads rest hrest p))
  show Except.ok ((), (⟨used ++ rest, p⟩ : Cursor).dropWhile Char.isDigit) = _
  rw [hcursor]

theorem takes_skipDigit : Takes Anywhere skipDigit := by
  intro o
  rw [skipDigit]
  refine TakesAt.peek ?_
  cases o with
  | none => exact TakesAt.failAhead _
  | some x =>
    split
    · exact TakesAt.skip x
    · exact TakesAt.failAhead _

theorem local_skipExponent : Local Stops skipExponent := by
  have hdigits : Takes Stops (skipDigit >>= fun _ => skipDigits) :=
    takes_skipDigit.anywhere.bind fun _ => local_skipDigits
  have htail : ∀ x, TakesAt (some x) Stops (skip >>= fun _ => peek >>= fun
      | some '+' | some '-' => skip >>= fun _ => skipDigit >>= fun _ => skipDigits
      | _ => skipDigit >>= fun _ => skipDigits) := by
    intro x
    refine TakesAt.behind fun o => (TakesAt.peek ?_).localAt
    split
    · exact TakesAt.behind hdigits.local
    · exact TakesAt.behind hdigits.local
    · exact hdigits o
  refine Local.peek (Local.pure ()) ?_ fun o => ?_
  · intro rest hrest
    have hstops := isDigit_of_stops hrest
    split
    · next he => exact absurd rfl (hstops _ he).2.2.1
    · next he => exact absurd rfl (hstops _ he).2.2.2
    · rfl
  · split
    · exact .inl (htail _)
    · exact .inl (htail _)
    · exact .inr rfl

theorem local_skipFraction : Local Stops skipFraction := by
  refine Local.peek local_skipExponent ?_ fun o => ?_
  · intro rest hrest
    have hstops := isDigit_of_stops hrest
    split
    · next he => exact absurd rfl (hstops _ he).2.1
    · rfl
  · split
    · refine .inl (TakesAt.behind ?_)
      exact takes_skipDigit.anywhere.local.bind fun _ =>
        local_skipDigits.bind fun _ => local_skipExponent
    · exact .inr rfl

/-- What stands behind the sign of a number. -/
theorem takes_skipUnsigned : Takes Stops (peek >>= fun
    | some '0' => skip >>= fun _ => peek >>= fun o =>
      if o.any Char.isDigit then failAhead .badNumber >>= fun _ : Unit => skipFraction
      else skipFraction
    | _ => skipDigit >>= fun _ => skipDigits >>= fun _ => skipFraction) := by
  intro o
  refine TakesAt.peek ?_
  split
  · exact TakesAt.behind (local_behindZero local_skipFraction)
  · exact (takes_skipDigit.anywhere.bind fun _ =>
      local_skipDigits.bind fun _ => local_skipFraction) o

theorem takes_skipNumber : Takes Stops skipNumber := by
  intro o
  refine TakesAt.peek ?_
  split
  · next h =>
    rw [h]
    exact TakesAt.behind takes_skipUnsigned.local
  · exact takes_skipUnsigned o

end NumberText
end Json
end CodeQuality
