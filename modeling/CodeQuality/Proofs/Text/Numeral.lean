import CodeQuality.Text.Numeral

/-!
# Numerals read back

A numeral, with or without zeros in front, has the value that it was written for, and a reader of
digits stops exactly at its end.

* `numeralValue_numeral`, `numeralValue_padded` — the value of a written number.
* `numeral_numeralValue` — the numeral of the value of digits.
* `splitDigits_append_of_length` — a numeral of a fixed width is split off whole.
-/

namespace CodeQuality
namespace Text

/-! ### Values -/

theorem numeralValue_eq_ofDigitChars (ds : List Char) :
    numeralValue ds = Nat.ofDigitChars 10 ds 0 := rfl

/-- A numeral has the value that it was written for. -/
@[simp] theorem numeralValue_numeral (n : Nat) : numeralValue (numeral n) = n :=
  Nat.ofDigitChars_toDigits (by decide) (by decide)

/-- Zeros in front do not count. -/
@[simp] theorem numeralValue_padded (width n : Nat) : numeralValue (padded width n) = n := by
  rw [numeralValue_eq_ofDigitChars, padded, Nat.ofDigitChars_append,
    Nat.ofDigitChars_replicate_zero, Nat.mul_zero]
  exact numeralValue_numeral n

/-- Zeros behind a numeral shift it to the left. -/
theorem numeralValue_append_zeros (ds : List Char) (n : Nat) :
    numeralValue (ds ++ List.replicate n '0') = numeralValue ds * Nat.pow 10 n := by
  rw [numeralValue_eq_ofDigitChars, Nat.ofDigitChars_append, Nat.ofDigitChars_replicate_zero]
  exact Nat.mul_comm _ _

/-! ### Digits -/

/-- Further digits do not make a number smaller. -/
theorem le_foldl_digits (ds : List Char) (n : Nat) :
    n ≤ ds.foldl (fun n c => 10 * n + digitValue c) n := by
  induction ds generalizing n with
  | nil => exact Nat.le_refl n
  | cons d ds ih =>
    have := ih (10 * n + digitValue d)
    rw [List.foldl_cons]
    omega

/-- A digit is one of the ten. -/
theorem digitValue_lt {c : Char} (h : c.isDigit = true) : digitValue c < 10 := by
  have hdigit : 48 ≤ c.toNat ∧ c.toNat ≤ 57 := by
    simp only [Char.isDigit, Bool.and_eq_true, decide_eq_true_eq] at h
    exact h
  show c.toNat - 48 < 10
  omega

/-- Digits behind a number leave it below the next number with as many zeros behind it. -/
theorem foldl_digits_lt {ds : List Char} (hd : ∀ c ∈ ds, c.isDigit = true) (n : Nat) :
    ds.foldl (fun n c => 10 * n + digitValue c) n < (n + 1) * Nat.pow 10 ds.length := by
  induction ds generalizing n with
  | nil => show n < (n + 1) * 1; omega
  | cons d ds ih =>
    have hfirst := digitValue_lt (hd d List.mem_cons_self)
    have hrest := ih (fun c hc => hd c (List.mem_cons_of_mem _ hc)) (10 * n + digitValue d)
    calc (d :: ds).foldl (fun n c => 10 * n + digitValue c) n
      _ < (10 * n + digitValue d + 1) * Nat.pow 10 ds.length := hrest
      _ ≤ (n + 1) * 10 * Nat.pow 10 ds.length := Nat.mul_le_mul_right _ (by omega)
      _ = (n + 1) * Nat.pow 10 (ds.length + 1) := by
        rw [Nat.mul_assoc, Nat.mul_comm 10]
        rfl

/-- A run of digits is less than the first number that needs one digit more. -/
theorem numeralValue_lt {ds : List Char} (hd : ∀ c ∈ ds, c.isDigit = true) :
    numeralValue ds < Nat.pow 10 ds.length := by
  have h := foldl_digits_lt hd 0
  rwa [Nat.zero_add, Nat.one_mul] at h

theorem isDigit_of_mem_numeral {n : Nat} {c : Char} (h : c ∈ numeral n) : c.isDigit = true :=
  Nat.isDigit_of_mem_toDigits (by decide) (by decide) h

theorem isDigit_of_mem_padded {width n : Nat} {c : Char} (h : c ∈ padded width n) :
    c.isDigit = true := by
  rcases List.mem_append.mp h with h | h
  · rw [List.eq_of_mem_replicate h]; rfl
  · exact isDigit_of_mem_numeral h

theorem numeral_ne_nil (n : Nat) : numeral n ≠ [] := Nat.toDigits_ne_nil

/-- A numeral begins with a digit. -/
theorem padded_eq_cons (width n : Nat) : ∃ d ds, padded width n = d :: ds ∧ d.isDigit = true := by
  cases h : padded width n with
  | nil =>
    obtain ⟨-, hnil⟩ := List.append_eq_nil_iff.mp h
    exact absurd hnil (numeral_ne_nil n)
  | cons d ds => exact ⟨d, ds, rfl, isDigit_of_mem_padded (h ▸ List.mem_cons_self)⟩

theorem numeral_zero : numeral 0 = ['0'] := Nat.toDigits_zero 10

/-- A positive number is written without a zero in front. -/
theorem head?_numeral_ne_zero {n : Nat} (h : 0 < n) : (numeral n).head? ≠ some '0' := by
  induction n using Nat.strongRecOn with
  | _ n ih =>
    rw [numeral]
    rcases Nat.lt_or_ge n 10 with hlt | hge
    · rw [Nat.toDigits_of_lt_base hlt, List.head?_cons]
      intro hc
      have := Nat.digitChar_eq_zero.mp (Option.some.inj hc)
      omega
    · have ih := ih (n / 10) (by omega) (by omega)
      have hne := numeral_ne_nil (n / 10)
      rw [Nat.toDigits_of_base_le (by decide) hge]
      rw [numeral] at ih hne
      cases hds : Nat.toDigits 10 (n / 10) with
      | nil => exact absurd hds hne
      | cons d ds => rw [hds] at ih; exact ih

theorem digitChar_digitValue {c : Char} (h : c.isDigit = true) : (digitValue c).digitChar = c := by
  have hdigit : 48 ≤ c.toNat ∧ c.toNat ≤ 57 := by
    simp only [Char.isDigit, Bool.and_eq_true, decide_eq_true_eq] at h
    exact h
  apply Char.toNat_inj.mp
  rw [Nat.toNat_digitChar_of_lt_ten (digitValue_lt h)]
  show 48 + (c.toNat - 48) = c.toNat
  omega

/-- Digits behind a positive number are written behind its numeral. -/
theorem numeral_foldl_digits {ds : List Char} (hd : ∀ c ∈ ds, c.isDigit = true) {n : Nat}
    (hn : 0 < n) :
    numeral (ds.foldl (fun n c => 10 * n + digitValue c) n) = numeral n ++ ds := by
  induction ds generalizing n with
  | nil => simp
  | cons d ds ih =>
    obtain ⟨hfirst, hrest⟩ := List.forall_mem_cons.mp hd
    have hnext : numeral (10 * n + digitValue d) = numeral n ++ [d] := by
      rw [numeral, ← Nat.toDigits_append_toDigits (by decide) hn (digitValue_lt hfirst),
        Nat.toDigits_of_lt_base (digitValue_lt hfirst), digitChar_digitValue hfirst]
      rfl
    rw [List.foldl_cons, ih hrest (by omega), hnext]
    simp

/-- A run of digits without a zero in front is the numeral of its value. -/
theorem numeral_numeralValue {ds : List Char} (hd : ∀ c ∈ ds, c.isDigit = true) (hne : ds ≠ [])
    (hlead : ds.head? ≠ some '0') : numeral (numeralValue ds) = ds := by
  obtain ⟨d, ds, rfl⟩ := List.exists_cons_of_ne_nil hne
  obtain ⟨hfirst, hrest⟩ := List.forall_mem_cons.mp hd
  have hpos : 0 < digitValue d := by
    apply Nat.pos_of_ne_zero
    intro hzero
    apply hlead
    rw [List.head?_cons, ← digitChar_digitValue hfirst, hzero]
    rfl
  have hvalue : numeralValue (d :: ds) =
      ds.foldl (fun n c => 10 * n + digitValue c) (digitValue d) := by
    simp [numeralValue]
  rw [hvalue, numeral_foldl_digits hrest hpos, numeral,
    Nat.toDigits_of_lt_base (digitValue_lt hfirst), digitChar_digitValue hfirst]
  rfl

/-- Zeros in front of a numeral do not count. -/
theorem numeralValue_zeros_append {zeros : List Char} (h : ∀ c ∈ zeros, c = '0')
    (ds : List Char) : numeralValue (zeros ++ ds) = numeralValue ds := by
  rw [List.eq_replicate_of_mem h, numeralValue_eq_ofDigitChars, Nat.ofDigitChars_append,
    Nat.ofDigitChars_replicate_zero, Nat.mul_zero]
  rfl

/-- A number that fits into the width fills it exactly. -/
theorem length_padded {width n : Nat} (hw : 0 < width) (hn : n < Nat.pow 10 width) :
    (padded width n).length = width := by
  have h : (numeral n).length ≤ width := (Nat.length_toDigits_le_iff (by decide) hw).mpr hn
  rw [padded, List.length_append, List.length_replicate]
  omega

/-- A run of digits as long as the reader may take is split off whole, whatever follows. -/
theorem splitDigits_append_of_length {ds : List Char} (hd : ∀ c ∈ ds, c.isDigit = true)
    (rest : List Char) : splitDigits ds.length (ds ++ rest) = (ds, rest) := by
  induction ds with
  | nil => cases rest <;> rfl
  | cons d ds ih =>
    have hd₁ : d.isDigit = true := hd d List.mem_cons_self
    have ih := ih fun c hc => hd c (List.mem_cons_of_mem _ hc)
    simp [splitDigits, hd₁, ih]

/-- Of a run of digits that no digit follows as many are split off as the reader may take. -/
theorem splitDigits_append_of_digits {max : Nat} {ds rest : List Char}
    (hd : ∀ c ∈ ds, c.isDigit = true) (hr : ∀ c ∈ rest.head?, c.isDigit = false) :
    splitDigits max (ds ++ rest) = (ds.take max, ds.drop max ++ rest) := by
  induction ds generalizing max with
  | nil =>
    cases max with
    | zero => cases rest <;> rfl
    | succ max =>
      cases rest with
      | nil => rfl
      | cons c rest => simp [splitDigits, hr c rfl]
  | cons d ds ih =>
    cases max with
    | zero => rfl
    | succ max =>
      have hd₁ : d.isDigit = true := hd d List.mem_cons_self
      have ih : splitDigits max (ds ++ rest) = (ds.take max, ds.drop max ++ rest) :=
        ih fun c hc => hd c (List.mem_cons_of_mem _ hc)
      simp [splitDigits, hd₁, ih]

/-- A run of digits that is no longer than the reader may take is split off whole, if no digit
follows. -/
theorem splitDigits_append_of_le {max : Nat} {ds rest : List Char}
    (hd : ∀ c ∈ ds, c.isDigit = true) (hr : ∀ c ∈ rest.head?, c.isDigit = false)
    (hmax : ds.length ≤ max) : splitDigits max (ds ++ rest) = (ds, rest) := by
  rw [splitDigits_append_of_digits hd hr, List.take_of_length_le hmax,
    List.drop_of_length_le hmax, List.nil_append]

/-- A numeral that fills its width is split off whole. -/
theorem splitDigits_padded {width n : Nat} (hw : 0 < width) (hn : n < Nat.pow 10 width)
    (rest : List Char) : splitDigits width (padded width n ++ rest) = (padded width n, rest) := by
  have h : splitDigits (padded width n).length (padded width n ++ rest) =
      (padded width n, rest) :=
    splitDigits_append_of_length (fun _ hc => isDigit_of_mem_padded hc) rest
  rwa [length_padded hw hn] at h

end Text
end CodeQuality
