import CodeQuality.Time.Calendar

/-!
# Days and their numbers

`Date.ofNumber` finds the day that has a number: the year that it estimates is the one that holds
the day, and the walk through the months ends at a day of the year.

* `daysBeforeYear_yearOf_le`, `lt_daysBeforeYear_yearOf` — the year holds the day.
* `Date.number_ofNumber`, `Date.valid_ofNumber` — the day has the number, and the calendar has it.
-/

namespace CodeQuality
namespace Calendar

/-! ### Years -/

/-- A year has 365 days, and one more if it is a leap year. -/
theorem daysBeforeYear_succ (y : Int) :
    daysBeforeYear (y + 1) = daysBeforeYear y + (if isLeapYear y then 366 else 365) := by
  unfold daysBeforeYear isLeapYear
  by_cases h₄ : y % 4 = 0 <;> by_cases h₁ : y % 100 = 0 <;> by_cases h₀ : y % 400 = 0 <;>
    simp [h₄, h₁, h₀] <;> omega

/-- The year does not begin behind the day. -/
theorem daysBeforeYear_yearOf_le (n : Int) : daysBeforeYear (yearOf n) ≤ n := by
  unfold yearOf
  simp only
  split
  · unfold daysBeforeYear at *; omega
  · split
    · assumption
    · omega

/-- The year does not end before the day. -/
theorem lt_daysBeforeYear_yearOf (n : Int) : n < daysBeforeYear (yearOf n + 1) := by
  unfold yearOf
  simp only
  split
  · rw [Int.sub_add_cancel]; assumption
  · split
    · unfold daysBeforeYear at *; omega
    · omega

/-! ### Months -/

/-- The days of months that have the given lengths. -/
def total (lengths : List Nat) : Nat := lengths.foldl (· + ·) 0

theorem total_cons (l : Nat) (lengths : List Nat) : total (l :: lengths) = l + total lengths := by
  have h : lengths.foldl (· + ·) (l + 0) = l + lengths.foldl (· + ·) 0 := List.foldl_assoc
  unfold total
  rw [List.foldl_cons, Nat.zero_add]
  exact h

/-- The walk through the months ends in a month that the day falls into: the months before it and
the days before the day in it make up what was walked. -/
theorem monthAndDay_spec {lengths : List Nat} {m d : Nat} (h : d < total lengths) :
    ∃ k l r, lengths[k]? = some l ∧ r < l ∧ total (lengths.take k) + r = d ∧
      monthAndDay m d lengths = (m + k, r + 1) := by
  -- The walk goes on with what is left of `d` behind the first month.
  induction lengths generalizing m d with
  | nil => nomatch h
  | cons l lengths ih =>
    rw [monthAndDay]
    split
    · next hd => exact ⟨0, l, d, rfl, hd, Nat.zero_add d, rfl⟩
    · next hd =>
      rw [total_cons] at h
      obtain ⟨k, l', r, hk, hr, hsum, heq⟩ := ih (m := m + 1) (d := d - l) (by omega)
      refine ⟨k + 1, l', r, by simpa using hk, hr, ?_, ?_⟩
      · rw [List.take_succ_cons, total_cons]; omega
      · rw [heq]; congr 1; omega

theorem total_monthLengths (leap : Bool) :
    total (monthLengths leap) = if leap then 366 else 365 := by cases leap <;> rfl

/-- A day of the year falls into one of its months. -/
theorem exists_monthAndDay {y : Int} {d : Nat} (h : d < total (monthLengths (isLeapYear y))) :
    ∃ m day, monthAndDay 1 d (monthLengths (isLeapYear y)) = (m, day) ∧ 1 ≤ m ∧ m ≤ 12 ∧
      1 ≤ day ∧ day ≤ monthLength y m ∧ daysBeforeMonth y m + day = d + 1 := by
  obtain ⟨k, l, r, hk, hr, hsum, heq⟩ := monthAndDay_spec (m := 1) h
  have hlt : k < 12 := by
    obtain ⟨hlt, -⟩ := List.getElem?_eq_some_iff.mp hk
    exact hlt
  have hm : 1 + k ≠ 0 := by omega
  have hsub : 1 + k - 1 = k := by omega
  refine ⟨1 + k, r + 1, heq, by omega, by omega, by omega, ?_, ?_⟩
  · rw [monthLength, if_neg hm, hsub, List.getD_eq_getElem?_getD, hk]
    exact hr
  · rw [daysBeforeMonth, hsub]
    unfold total at hsum
    omega

/-- The months of a year are no longer than a leap year. -/
theorem daysBeforeMonth_le (y : Int) (m : Nat) : daysBeforeMonth y m ≤ 366 := by
  unfold daysBeforeMonth
  generalize isLeapYear y = leap
  generalize m - 1 = k
  match k with
  | 0 | 1 | 2 | 3 | 4 | 5 | 6 | 7 | 8 | 9 | 10 | 11 => cases leap <;> decide
  | k + 12 => cases leap <;> simp [monthLengths]

/-! ### Days -/

namespace Date

/-- The year of a day holds its number. -/
theorem dayOfYear_lt (n : Int) :
    (n - daysBeforeYear (yearOf n)).toNat < total (monthLengths (isLeapYear (yearOf n))) := by
  have hlow := daysBeforeYear_yearOf_le n
  have hhigh := lt_daysBeforeYear_yearOf n
  rw [daysBeforeYear_succ] at hhigh
  rw [total_monthLengths]
  split at hhigh <;> simp_all <;> omega

/-- The day that is found for a number has that number. -/
theorem number_ofNumber (n : Int) : (ofNumber n).number = n := by
  have hlow := daysBeforeYear_yearOf_le (n + epoch)
  obtain ⟨m, day, heq, -, -, -, -, hday⟩ := exists_monthAndDay (dayOfYear_lt (n + epoch))
  rw [ofNumber]
  simp only [heq, number]
  omega

/-- The calendar has the day that is found for a number. -/
theorem valid_ofNumber (n : Int) : (ofNumber n).valid = true := by
  obtain ⟨m, day, heq, hm, hm', hd, hd', -⟩ := exists_monthAndDay (dayOfYear_lt (n + epoch))
  rw [ofNumber]
  simp only [heq, valid, Bool.and_eq_true, decide_eq_true_eq]
  exact ⟨⟨⟨hm, hm'⟩, hd⟩, hd'⟩

theorem valid_iff {d : Date} : d.valid = true ↔
    (1 ≤ d.month ∧ d.month ≤ 12) ∧ 1 ≤ d.day ∧ d.day ≤ monthLength d.year d.month := by
  simp only [valid, Bool.and_eq_true, decide_eq_true_eq, and_assoc]

end Date
end Calendar
end CodeQuality
