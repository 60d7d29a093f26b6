import CodeQuality.Proofs.Time.Forms

/-!
# Written timestamps read again

What is written of an instant is read again if its year has four digits. Any other year is written
with a sign. The strict reader knows no signs, and the loose one, which does, misses the offset that
the `Z` stands for; so such a timestamp is not read at all. An offset is enough to come there: the
last hour of 9999 west of Greenwich is an hour of the year 10000.

* `FourDigits` — the instants whose year has four digits.
* `read?_text_eq` — what is made of a written timestamp.
-/

namespace CodeQuality
namespace Timestamp

open Text (padded splitDigits)

/-- Is the year of the instant one of those from 0 to 9999? -/
def FourDigits (t : Instant) : Prop := 0 ≤ t.year ∧ t.year ≤ 9999

instance (t : Instant) : Decidable (FourDigits t) :=
  inferInstanceAs (Decidable (0 ≤ t.year ∧ t.year ≤ 9999))

/-- A year that has not four digits is written behind a sign. -/
theorem yearText_of_not {t : Instant} (h : ¬ FourDigits t) :
    ∃ sign, (sign = '-' ∨ sign = '+') ∧
      yearText t.date.year = sign :: padded 4 t.date.year.natAbs := by
  have hyear : ¬ ((0 ≤ t.date.year && t.date.year ≤ 9999) = true) := by
    rw [Bool.and_eq_true, decide_eq_true_eq, decide_eq_true_eq]
    exact h
  rw [yearText, if_neg hyear]
  by_cases hneg : t.date.year < 0
  · rw [if_pos hneg]
    exact ⟨'-', .inl rfl, rfl⟩
  · rw [if_neg hneg]
    exact ⟨'+', .inr rfl, rfl⟩

namespace Scan

/-- A number does not begin with anything but a digit. -/
theorem number_of_head {min max : Nat} (hmin : 0 < min) {c : Char} (hc : c.isDigit = false)
    (rest : List Char) : number min max (c :: rest) = none := by
  have hhead : ∀ d ∈ (c :: rest).head?, d.isDigit = false := by
    rintro d ⟨⟩
    exact hc
  have hsplit : splitting (splitDigits max) (c :: rest) = some ([], c :: rest) :=
    congrArg some (Text.splitDigits_append_of_le (List.forall_mem_nil _) hhead (Nat.zero_le max))
  rw [number, scan_bind hsplit, if_pos (show [].length < min from hmin)]
  rfl

/-- The strict reader knows no signs. -/
theorem strict_signed {sign : Char} (h : sign = '-' ∨ sign = '+') (rest : List Char) :
    strict (sign :: rest) = none := by
  have hdigit : sign.isDigit = false := by rcases h with rfl | rfl <;> rfl
  rw [strict]
  show (number 4 4 (sign :: rest)).bind _ = none
  rw [number_of_head (by decide) hdigit]
  rfl

/-- Behind a sign the loose reader takes all digits of a year. -/
theorem looseYear_signed {sign : Char} (h : sign = '-' ∨ sign = '+') (width n : Nat)
    {rest : List Char} (hr : ∀ c ∈ rest.head?, c.isDigit = false) :
    looseYear (sign :: (padded width n ++ rest)) =
      some (if sign = '-' then -(n : Int) else n, rest) := by
  have hblank : Text.isBlank sign = false := by rcases h with rfl | rfl <;> decide
  have hskip : skipping Text.isBlank (sign :: (padded width n ++ rest)) =
      some ((), sign :: (padded width n ++ rest)) :=
    skipping_of_head fun c hc => Option.some.inj hc ▸ hblank
  have hnumber : number 1 (padded width n ++ rest).length (padded width n ++ rest) =
      some (n, rest) := by
    have hsplit : splitting (splitDigits (padded width n ++ rest).length)
        (padded width n ++ rest) = some (padded width n, rest) :=
      congrArg some (Text.splitDigits_append_of_le (fun _ => Text.isDigit_of_mem_padded) hr
        (by rw [List.length_append]; omega))
    obtain ⟨d, ds, hds, -⟩ := Text.padded_eq_cons width n
    have hlength : ¬ (padded width n).length < 1 := by rw [hds]; simp
    rw [number, scan_bind hsplit, if_neg hlength, Text.numeralValue_padded]
    rfl
  rw [looseYear, scan_bind hskip]
  rcases h with rfl | rfl
  · show (number 1 (padded width n ++ rest).length >>= fun n => pure (-(n : Int)) : Scan Int)
      (padded width n ++ rest) = _
    rw [scan_bind hnumber]
    rfl
  · show (number 1 (padded width n ++ rest).length >>= fun n => pure (n : Int) : Scan Int)
      (padded width n ++ rest) = _
    rw [scan_bind hnumber]
    rfl

/-- The loose reader goes through the day and the time, and stops in front of the `Z`. -/
theorem loose_chars {t : Instant} (hv : t.valid = true) (h : ¬ FourDigits t) :
    loose (chars t) = none := by
  obtain ⟨sign, hsign, hyear⟩ := yearText_of_not h
  obtain ⟨⟨hmonth, hday⟩, hhour, hminute, hsecond⟩ := two_digits t
  rw [chars_eq, dayChars, hyear, loose]
  simp only [List.append_assoc, List.cons_append]
  have hhyphen (rest : List Char) : ∀ c ∈ ('-' :: rest).head?, c.isDigit = false := by
    rintro c ⟨⟩
    rfl
  rw [scan_bind (looseYear_signed hsign 4 _ (hhyphen _)), scan_bind (char_cons '-' _),
    scan_bind (looseNumber_padded hmonth _), scan_bind (char_cons '-' _),
    scan_bind (looseNumber_padded hday _), scan_bind (char_cons 'T' _),
    scan_bind (looseNumber_padded hhour _), scan_bind (char_cons ':' _),
    scan_bind (looseNumber_padded hminute _), scan_bind (char_cons ':' _),
    scan_bind (looseNumber_padded hsecond _),
    scan_bind (fraction_padded (shownMillis_lt hv) (by simp))]
  rfl

end Scan

/-- A written timestamp is read as its instant, cut to whole milliseconds, if the year has four
digits, and is not read if it has not. -/
theorem read?_text_eq {t : Instant} (hv : t.valid = true) :
    read? (text t) = if FourDigits t then some t.cutToMillis else none := by
  by_cases h : FourDigits t
  · rw [if_pos h]
    exact read?_text hv h.1 h.2
  · rw [if_neg h]
    obtain ⟨sign, hsign, hyear⟩ := yearText_of_not h
    have hstrict : Scan.strict (chars t) = none := by
      rw [chars_eq, dayChars, hyear]
      exact Scan.strict_signed hsign _
    have hloose := Scan.loose_chars hv h
    rw [read?, text, String.toList_ofList, Scan.whole, Scan.whole, StateT.run, StateT.run, hstrict,
      hloose]
    rfl

end Timestamp
end CodeQuality
