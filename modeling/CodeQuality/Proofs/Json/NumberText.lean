import CodeQuality.Json.Cause
import CodeQuality.Json.NumberText
import CodeQuality.Proofs.Json.Reading
import CodeQuality.Proofs.Text.Numeral

/-!
# Integers read back

An integer that fits into 64 bits, with or without a sign, is read from its decimal digits as
itself.

* `absorb_of_le` — all digits are taken up if their value is not too large.
* `reads_integer` — the whole number.
-/

namespace CodeQuality
namespace Json
namespace NumberText

open Reader

/-! ### Digits -/

/-- All digits are taken up if the value that they make is not too large. -/
theorem absorb_of_le {bound : Nat} {ds : List Char} {n : Nat}
    (h : ds.foldl (fun n c => 10 * n + Text.digitValue c) n ≤ bound) :
    absorb bound n ds = (ds.foldl (fun n c => 10 * n + Text.digitValue c) n, []) := by
  induction ds generalizing n with
  | nil => rfl
  | cons d ds ih =>
    rw [List.foldl_cons] at h
    have hnext : 10 * n + Text.digitValue d ≤ bound := Nat.le_trans (Text.le_foldl_digits ds _) h
    rw [absorb]
    simp only [if_pos hnext]
    exact ih h

theorem absorb_numeral {n : Nat} (h : n ≤ maxSignificand) :
    absorb maxSignificand 0 (Text.numeral n) = (n, []) := by
  have hvalue : (Text.numeral n).foldl (fun n c => 10 * n + Text.digitValue c) 0 = n :=
    Text.numeralValue_numeral n
  rw [absorb_of_le (by rw [hvalue]; exact h), hvalue]

theorem reads_digits {ds rest : List Char} (hd : ∀ c ∈ ds, c.isDigit = true)
    (hr : ∀ c ∈ rest.head?, c.isDigit = false) : digits.Reads ds rest ds := by
  intro p
  rw [digits, dropWhile_cursor hd hr, Text.takeWhile_append hd hr]

/-! ### Whole numbers -/

/-- What follows a value is no part of a number. -/
theorem isDigit_of_stops {rest : List Char} (h : Stops rest) :
    ∀ c ∈ rest.head?, c.isDigit = false ∧ c ≠ '.' ∧ c ≠ 'e' ∧ c ≠ 'E' := by
  intro c hc
  rcases h c hc with hs | rfl | rfl | rfl
  · simp only [isSpace, Bool.or_eq_true, decide_eq_true_eq] at hs
    rcases hs with ((rfl | rfl) | rfl) | rfl <;> decide
  all_goals decide

theorem any_isDigit_of_stops {rest : List Char} (h : Stops rest) :
    rest.head?.any Char.isDigit = false := by
  cases rest with
  | nil => rfl
  | cons c rest => exact (isDigit_of_stops h c rfl).1

theorem reads_behindWhole {negative : Bool} {n : Nat} {rest : List Char} {a : Number}
    (hr : Stops rest) (h : (integer negative n).Reads [] rest a) :
    (behindWhole negative n 0).Reads [] rest a := by
  have hstops := isDigit_of_stops hr
  rw [behindWhole]
  refine Reads.bind (s := []) (reads_peek rest) ?_
  cases rest with
  | nil => exact h
  | cons c rest =>
    obtain ⟨-, hpoint, he, hE⟩ := hstops c rfl
    simp only [List.head?_cons, if_true]
    split
    · next heq => exact absurd (Option.some.inj heq) hpoint
    · next heq => exact absurd (Option.some.inj heq) he
    · next heq => exact absurd (Option.some.inj heq) hE
    · exact h

/-- The digits of a number that fits. -/
theorem reads_unsigned {negative : Bool} {n : Nat} (hn : n ≤ maxSignificand) {rest : List Char}
    (hr : Stops rest) {a : Number} (h : ∀ rest, (integer negative n).Reads [] rest a) :
    (unsigned negative).Reads (Text.numeral n) rest a := by
  have hbehind := reads_behindWhole hr (h rest)
  rw [unsigned]
  rcases Nat.eq_zero_or_pos n with rfl | hpos
  · -- A zero stands alone, since no digit may follow it.
    rw [Text.numeral_zero]
    refine Reads.bind (s := []) (reads_peek ('0' :: rest)) ?_
    refine Reads.bind (s := ['0']) (reads_skip '0' rest) ?_
    refine Reads.bind (s := []) (reads_peek rest) ?_
    rw [any_isDigit_of_stops hr]
    exact hbehind
  · -- Any other number begins with another digit, and the reader takes all of them.
    have hne := Text.head?_numeral_ne_zero hpos
    have hdigits : digits.Reads (Text.numeral n) rest (Text.numeral n) := reads_digits
      (fun c => Text.isDigit_of_mem_numeral) fun c hc => (isDigit_of_stops hr c hc).1
    have habsorb := absorb_numeral hn
    obtain ⟨d, ds, hds⟩ := List.exists_cons_of_ne_nil (Text.numeral_ne_nil n)
    have hd : d.isDigit = true := Text.isDigit_of_mem_numeral (n := n) (hds ▸ List.mem_cons_self)
    rw [hds] at hne hdigits habsorb ⊢
    refine Reads.bind (s := []) (reads_peek (d :: (ds ++ rest))) ?_
    have hzero : d ≠ '0' := fun h => hne (congrArg some h)
    simp only [List.head?_cons, if_pos hd]
    refine Reads.cast (Reads.bind (t := []) hdigits ?_) (List.append_nil _)
    rw [habsorb]
    exact hbehind

theorem head?_digits_ne_minus {ds : List Char} (hd : ∀ c ∈ ds, c.isDigit = true) (hne : ds ≠ [])
    (rest : List Char) : (ds ++ rest).head? ≠ some '-' := by
  obtain ⟨d, ds, rfl⟩ := List.exists_cons_of_ne_nil hne
  intro h
  obtain rfl : d = '-' := Option.some.inj h
  exact absurd (hd '-' List.mem_cons_self) (by decide)

/-- An integer that fits into 64 bits is read from its digits. -/
theorem reads_integer {n : Int} (h₀ : -0x8000000000000000 ≤ n) (h₁ : n ≤ 0xFFFFFFFFFFFFFFFF)
    {rest : List Char} (hr : Stops rest) :
    read.Reads (Number.integer n).text.toList rest (.integer n) := by
  show read.Reads (toString n).toList rest _
  rw [Int.toString_eq_repr, Int.repr_eq_if, read]
  -- Behind a sign the digits are those of the absolute value, which is not zero.
  rcases Int.lt_or_le n 0 with hneg | hnonneg
  · have hsize : n.natAbs ≤ 0x8000000000000000 := by omega
    have hn : n.natAbs ≠ 0 := by omega
    have hvalue : -(n.natAbs : Int) = n := by omega
    have hinteger : ∀ rest, (integer true n.natAbs).Reads [] rest (.integer n) := by
      intro rest
      rw [integer]
      simp only [Bool.not_true, Bool.false_eq_true, if_false, hn, hsize, hvalue, ne_eq,
        not_false_eq_true, decide_true, Bool.and_self, if_true]
      exact Reads.pure _ _
    have habs : (-n).toNat = n.natAbs := by omega
    rw [if_neg (Int.not_le.mpr hneg), String.toList_append, habs, Nat.toList_repr]
    refine Reads.bind (s := []) (reads_peek ('-' :: _)) ?_
    refine Reads.bind (s := ['-']) (reads_skip '-' _) ?_
    exact reads_unsigned (Nat.le_trans hsize (by decide)) hr hinteger
  · have hvalue : (n.toNat : Int) = n := Int.toNat_of_nonneg hnonneg
    have hinteger : ∀ rest, (integer false n.toNat).Reads [] rest (.integer n) := by
      intro rest
      rw [integer, hvalue]
      exact Reads.pure _ _
    have hfits : n.toNat ≤ maxSignificand := by
      rw [maxSignificand]
      omega
    have hread := reads_unsigned hfits hr hinteger
    have hsign : (Text.numeral n.toNat ++ rest).head? ≠ some '-' := head?_digits_ne_minus
      (fun c => Text.isDigit_of_mem_numeral) (Text.numeral_ne_nil _) rest
    rw [if_pos hnonneg, Nat.toList_repr]
    refine Reads.bind (s := []) (reads_peek (Text.numeral n.toNat ++ rest)) ?_
    split
    · next heq => exact absurd heq hsign
    · exact hread

end NumberText
end Json
end CodeQuality
