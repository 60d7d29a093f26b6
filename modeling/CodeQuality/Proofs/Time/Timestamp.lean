import CodeQuality.Proofs.Text.Numeral
import CodeQuality.Proofs.Steps
import CodeQuality.Proofs.Time.Calendar
import CodeQuality.Time.Timestamp

/-!
# Written timestamps

What `Timestamp.text` writes for an instant of the years 0 to 9999 is read in the strict form, and
gives that instant cut to whole milliseconds, leap seconds included.

* `Scan.strict_chars` — the numbers that the strict reader finds in a written timestamp.
* `Reading.instant?_ofInstant` — those numbers denote the instant.
* `read?_text` — both together.
* `text_cutToMillis`, `valid_of_read?` — what is written of an instant, and what is read at all.
-/

namespace CodeQuality
namespace Timestamp

open Text (numeralValue padded splitDigits)

/-! ### Single numbers -/

namespace Scan

/-- A numeral as long as a number may be is read as the number that it was written for. -/
theorem number_padded_of_le {min width n : Nat} (hw : 0 < width) (hn : n < Nat.pow 10 width)
    (hmin : min ≤ width) (rest : List Char) :
    number min width (padded width n ++ rest) = some (n, rest) := by
  have hsplit : splitting (splitDigits width) (padded width n ++ rest) =
      some (padded width n, rest) := congrArg some (Text.splitDigits_padded hw hn rest)
  have hlen : ¬ (padded width n).length < min := by rw [Text.length_padded hw hn]; omega
  rw [number, scan_bind hsplit, if_neg hlen]
  show some (numeralValue (padded width n), rest) = some (n, rest)
  rw [Text.numeralValue_padded]

/-- A numeral that fills its width is read as the number that it was written for. -/
theorem number_padded {width n : Nat} (hw : 0 < width) (hn : n < Nat.pow 10 width)
    (rest : List Char) : number width width (padded width n ++ rest) = some (n, rest) :=
  number_padded_of_le hw hn (Nat.le_refl width) rest

theorem satisfying_cons {p : Char → Bool} {c : Char} (h : p c = true) (rest : List Char) :
    satisfying p (c :: rest) = some ((), rest) := by rw [satisfying, if_pos h]

theorem char_cons (c : Char) (rest : List Char) : char c (c :: rest) = some ((), rest) :=
  satisfying_cons (decide_eq_true rfl) rest

theorem char_of_ne {c d : Char} (h : d ≠ c) (rest : List Char) : char c (d :: rest) = none :=
  if_neg (mt of_decide_eq_true h)

/-- Three digits behind a point are milliseconds. -/
theorem fraction_padded {ms : Nat} (h : ms < 1000) {rest : List Char}
    (hr : ∀ c ∈ rest.head?, c.isDigit = false) :
    fraction ('.' :: (padded 3 ms ++ rest)) = some (ms * 1000000, rest) := by
  have hlen : (padded 3 ms).length = 3 := Text.length_padded (by decide) h
  have hsplit : splitDigits 9 (padded 3 ms ++ rest) = (padded 3 ms, rest) :=
    Text.splitDigits_append_of_le (fun _ hc => Text.isDigit_of_mem_padded hc) hr (by omega)
  have hdrop : rest.dropWhile Char.isDigit = rest := by
    cases rest with
    | nil => rfl
    | cons c rest => rw [List.dropWhile_cons, hr c rfl]; rfl
  rw [fraction, hsplit]
  obtain ⟨d, ds, hds⟩ : ∃ d ds, padded 3 ms = d :: ds := by
    cases hp : padded 3 ms with
    | nil => rw [hp] at hlen; simp at hlen
    | cons d ds => exact ⟨d, ds, rfl⟩
  rw [hds] at hlen ⊢
  simp only [hlen, hdrop]
  rw [← hds, Text.numeralValue_padded]

end Scan

/-! ### The whole timestamp -/

/-- The second of the minute as it is written, in which a leap second is number 60. -/
def shownSecond (t : Instant) : Nat :=
  if t.isLeap then t.secondOfDay % 60 + 1 else t.secondOfDay % 60

/-- The whole milliseconds behind the second that is written. -/
def shownMillis (t : Instant) : Nat :=
  (if t.isLeap then t.nanos - Instant.nanosPerSecond else t.nanos) / 1000000

/-- The numbers that are written for an instant. -/
def Reading.ofInstant (t : Instant) : Reading :=
  { date := t.date, hour := t.secondOfDay / 3600, minute := t.secondOfDay / 60 % 60
    second := shownSecond t, nanos := shownMillis t * 1000000, offset := 0 }

/-- To choose one of two pairs is to choose their parts. -/
theorem chosen_pair {α β γ : Type} (b : Bool) (a a' : α) (c c' : β) (f : α → β → γ) :
    (match if b then (a, c) else (a', c') with | (x, y) => f x y) =
      f (if b then a else a') (if b then c else c') := by cases b <;> rfl

theorem chars_eq (t : Instant) :
    chars t = dayChars t.date ++ 'T' :: (padded 2 (t.secondOfDay / 3600) ++
      ':' :: (padded 2 (t.secondOfDay / 60 % 60) ++ ':' :: (padded 2 (shownSecond t) ++
        '.' :: (padded 3 (shownMillis t) ++ ['Z'])))) := by
  refine (chosen_pair t.isLeap _ _ _ _ fun second nanos =>
    dayChars t.date ++ 'T' :: padded 2 (t.secondOfDay / 3600) ++
      ':' :: padded 2 (t.secondOfDay / 60 % 60) ++ ':' :: padded 2 second ++
      '.' :: padded 3 (nanos / 1000000) ++ ['Z']).trans ?_
  simp only [List.append_assoc, List.cons_append, shownSecond, shownMillis]

theorem secondOfDay_lt (t : Instant) : t.secondOfDay < 86400 := by
  unfold Instant.secondOfDay Instant.secondsPerDay
  omega

theorem isLeap_iff {t : Instant} : t.isLeap = true ↔ 1000000000 ≤ t.nanos :=
  decide_eq_true_iff

theorem nanos_lt {t : Instant} (h : t.valid = true) : t.nanos < 2000000000 := by
  simp only [Instant.valid, Bool.and_eq_true, decide_eq_true_eq] at h
  exact h.1.2

/-- A leap second is the last one of its minute. -/
theorem secondOfDay_of_isLeap {t : Instant} (h : t.valid = true) (hl : t.isLeap = true) :
    t.secondOfDay % 60 = 59 := by
  simp only [Instant.valid, Bool.and_eq_true, Bool.or_eq_true, decide_eq_true_eq] at h
  have hmod : t.seconds % 60 = 59 := h.2.resolve_left (Nat.not_lt.mpr (isLeap_iff.mp hl))
  unfold Instant.secondOfDay Instant.secondsPerDay
  omega

theorem shownSecond_le (t : Instant) : shownSecond t ≤ 60 := by
  unfold shownSecond
  split <;> omega

theorem shownSecond_eq_sixty_iff {t : Instant} (h : t.valid = true) :
    shownSecond t = 60 ↔ t.isLeap = true := by
  by_cases hl : t.isLeap = true
  · have := secondOfDay_of_isLeap h hl
    rw [shownSecond, if_pos hl]
    exact ⟨fun _ => hl, fun _ => by omega⟩
  · rw [shownSecond, if_neg hl]
    exact ⟨fun hs => by omega, fun hl' => absurd hl' hl⟩

/-- The second that is written lies in the minute of the instant. -/
theorem min_shownSecond {t : Instant} (h : t.valid = true) :
    min (shownSecond t) 59 = t.secondOfDay % 60 := by
  by_cases hl : t.isLeap = true
  · have := secondOfDay_of_isLeap h hl
    rw [shownSecond, if_pos hl]
    omega
  · rw [shownSecond, if_neg hl]
    omega

theorem shownMillis_lt {t : Instant} (h : t.valid = true) : shownMillis t < 1000 := by
  have hn := nanos_lt h
  by_cases hl : t.isLeap = true
  · rw [shownMillis, if_pos hl, Instant.nanosPerSecond]
    omega
  · have := mt isLeap_iff.mpr hl
    rw [shownMillis, if_neg hl]
    omega

/-- No month has more than 31 days. -/
theorem monthLength_le (y : Int) (m : Nat) : Calendar.monthLength y m ≤ 31 := by
  unfold Calendar.monthLength Calendar.monthLengths
  split
  · omega
  · generalize m - 1 = k
    match k with
    | 0 | 1 | 2 | 3 | 4 | 5 | 6 | 7 | 8 | 9 | 10 | 11 => cases Calendar.isLeapYear y <;> decide
    | k + 12 => simp

/-- Months and the days of a month have at most two digits. -/
theorem two_digits_of_valid {d : Calendar.Date} (h : d.valid = true) :
    d.month < 100 ∧ d.day < 100 := by
  obtain ⟨⟨-, hm⟩, -, hd⟩ := Calendar.Date.valid_iff.mp h
  have hlength := monthLength_le d.year d.month
  omega

/-- The numbers that are written behind the year have at most two digits. -/
theorem two_digits (t : Instant) :
    (t.date.month < 100 ∧ t.date.day < 100) ∧ t.secondOfDay / 3600 < 100 ∧
      t.secondOfDay / 60 % 60 < 100 ∧ shownSecond t < 100 := by
  have hs := secondOfDay_lt t
  have hshown := shownSecond_le t
  refine ⟨two_digits_of_valid (Calendar.Date.valid_ofNumber t.dayNumber), ?_⟩
  omega

/-- The strict reader finds the numbers that were written, for years of four digits. -/
theorem Scan.strict_chars {t : Instant} (hv : t.valid = true) (h₀ : 0 ≤ t.year)
    (h₁ : t.year ≤ 9999) : strict (chars t) = some (Reading.ofInstant t, []) := by
  obtain ⟨⟨hmonth, hday⟩, hhour, hminute, hsecond⟩ := two_digits t
  have hyear : yearText t.date.year = padded 4 t.date.year.toNat := by
    rw [yearText, if_pos]
    simp only [Bool.and_eq_true, decide_eq_true_eq]
    exact ⟨h₀, h₁⟩
  have hy : t.date.year.toNat < 10000 := by
    have : t.date.year ≤ 9999 := h₁
    omega
  rw [chars_eq, dayChars, hyear, strict]
  simp only [List.append_assoc, List.cons_append]
  -- Each numeral fills its width, so the reader stops at the separator behind it.
  rw [scan_bind (number_padded (by decide) hy _), scan_bind (char_cons '-' _),
    scan_bind (number_padded (by decide) hmonth _), scan_bind (char_cons '-' _),
    scan_bind (number_padded (by decide) hday _), scan_bind (satisfying_cons (by decide) _),
    scan_bind (number_padded (by decide) hhour _), scan_bind (char_cons ':' _),
    scan_bind (number_padded (by decide) hminute _), scan_bind (char_cons ':' _),
    scan_bind (number_padded (by decide) hsecond _),
    scan_bind (fraction_padded (shownMillis_lt hv) (by simp))]
  have hyear' : (t.date.year.toNat : Int) = t.date.year := Int.toNat_of_nonneg h₀
  show some (Reading.mk ⟨(t.date.year.toNat : Int), _, _⟩ _ _ _ _ _, _) = _
  rw [hyear']
  rfl

theorem cutToMillis_valid {t : Instant} (h : t.valid = true) : t.cutToMillis.valid = true := by
  have hle : t.cutToMillis.nanos ≤ t.nanos := Nat.div_mul_le_self t.nanos 1000000
  simp only [Instant.valid, Bool.and_eq_true, Bool.or_eq_true, decide_eq_true_eq] at h ⊢
  obtain ⟨⟨hrange, hnanos⟩, hleap⟩ := h
  exact ⟨⟨hrange, Nat.lt_of_le_of_lt hle hnanos⟩, hleap.imp_left (Nat.lt_of_le_of_lt hle)⟩

/-- The numbers that are written for an instant denote it, cut to whole milliseconds. -/
theorem Reading.instant?_ofInstant {t : Instant} (hv : t.valid = true) (h₀ : -262143 ≤ t.year)
    (h₁ : t.year ≤ 262142) : (Reading.ofInstant t).instant? = some t.cutToMillis := by
  have hs := secondOfDay_lt t
  have hsec := shownSecond_le t
  have hclock : (Reading.ofInstant t).onClock = true := by
    simp only [Reading.onClock, Bool.and_eq_true, decide_eq_true_eq]
    have hhour : t.secondOfDay / 3600 < 24 := by omega
    have hminute : t.secondOfDay / 60 % 60 < 60 := by omega
    exact ⟨⟨⟨hhour, hminute⟩, hsec⟩, show 0 < 86400 by decide⟩
  have hdate : (Reading.ofInstant t).date.valid = true := Calendar.Date.valid_ofNumber _
  have hseconds : (Reading.ofInstant t).seconds = t.seconds := by
    have hnumber : t.date.number = t.dayNumber := Calendar.Date.number_ofNumber _
    have hmin := min_shownSecond hv
    simp only [Reading.seconds, Reading.ofInstant, hnumber, hmin]
    simp only [Instant.dayNumber, Instant.secondOfDay, Instant.secondsPerDay]
    omega
  have hshown : (if (Reading.ofInstant t).second = 60 then
      Instant.nanosPerSecond + (Reading.ofInstant t).nanos else (Reading.ofInstant t).nanos) =
      t.nanos / 1000000 * 1000000 := by
    show (if shownSecond t = 60 then _ else _) = _
    simp only [shownSecond_eq_sixty_iff hv, Reading.ofInstant, shownMillis]
    by_cases hl : t.isLeap = true
    · have := isLeap_iff.mp hl
      rw [if_pos hl, if_pos hl, Instant.nanosPerSecond]
      omega
    · rw [if_neg hl, if_neg hl]
  rw [Reading.instant?, if_pos, hseconds, hshown, Instant.ofUnix?]
  · exact if_pos (cutToMillis_valid hv)
  · simp only [hdate, hclock, Bool.and_true, Bool.and_eq_true, decide_eq_true_eq]
    exact ⟨⟨trivial, h₀⟩, h₁⟩

/-- A written timestamp of the years 0 to 9999 is read as the instant that it was written for, cut
to whole milliseconds. -/
theorem read?_text {t : Instant} (hv : t.valid = true) (h₀ : 0 ≤ t.year) (h₁ : t.year ≤ 9999) :
    read? (text t) = some t.cutToMillis := by
  have hinstant := Reading.instant?_ofInstant hv (by omega) (by omega)
  have hwhole : Scan.strict.whole (chars t) = some t.cutToMillis := by
    rw [Scan.whole, StateT.run, Scan.strict_chars hv h₀ h₁]
    exact hinstant
  rw [read?, text, String.toList_ofList, hwhole]
  rfl

/-- Is the instant one of those that their written form denotes exactly: a whole millisecond of the
years 0 to 9999? -/
def Exact (t : Instant) : Prop :=
  t.valid = true ∧ t.nanos % 1000000 = 0 ∧ 0 ≤ t.year ∧ t.year ≤ 9999

theorem cutToMillis_eq_self {t : Instant} (h : t.nanos % 1000000 = 0) : t.cutToMillis = t := by
  have hnanos : t.nanos / 1000000 * 1000000 = t.nanos :=
    Nat.div_mul_cancel (Nat.dvd_of_mod_eq_zero h)
  rw [Instant.cutToMillis, hnanos]

theorem read?_text_of_exact {t : Instant} (h : Exact t) : read? (text t) = some t := by
  obtain ⟨hv, hmillis, h₀, h₁⟩ := h
  rw [read?_text hv h₀ h₁, cutToMillis_eq_self hmillis]

/-! ### What is cut off -/

theorem exact_cutToMillis {t : Instant} (hv : t.valid = true) (h₀ : 0 ≤ t.year)
    (h₁ : t.year ≤ 9999) : Exact t.cutToMillis :=
  ⟨cutToMillis_valid hv, Nat.mul_mod_left _ _, h₀, h₁⟩

theorem isLeap_cutToMillis (t : Instant) : t.cutToMillis.isLeap = t.isLeap := by
  rw [Bool.eq_iff_iff, isLeap_iff, isLeap_iff]
  show 1000000000 ≤ t.nanos / 1000000 * 1000000 ↔ _
  omega

theorem shownMillis_cutToMillis (t : Instant) : shownMillis t.cutToMillis = shownMillis t := by
  have hnanos : t.cutToMillis.nanos = t.nanos / 1000000 * 1000000 := rfl
  unfold shownMillis Instant.nanosPerSecond
  rw [isLeap_cutToMillis, hnanos]
  split <;> omega

/-- What is cut off has not been written. -/
theorem text_cutToMillis (t : Instant) : text t.cutToMillis = text t := by
  have hsecond : shownSecond t.cutToMillis = shownSecond t := by
    unfold shownSecond
    rw [isLeap_cutToMillis]
    rfl
  unfold text
  rw [chars_eq, chars_eq, hsecond, shownMillis_cutToMillis]
  rfl

/-- Every timestamp denotes an instant that exists. -/
theorem valid_of_read? {s : String} {t : Instant} (h : read? s = some t) : t.valid = true := by
  have hreading {r : Reading} (h : r.instant? = some t) : t.valid = true := by
    unfold Reading.instant? at h
    split at h
    · exact Instant.valid_of_ofUnix? h
    · nomatch h
  have hwhole {scan : Scan Reading} (h : scan.whole s.toList = some t) : t.valid = true := by
    unfold Scan.whole at h
    split at h
    · exact hreading h
    · nomatch h
  rw [read?, Option.orElse_eq_orElse, Option.orElse_eq_or] at h
  obtain h | ⟨-, h⟩ := Option.or_eq_some_iff.mp h
  · exact hwhole h
  · exact hwhole h

end Timestamp
end CodeQuality
