import CodeQuality.Proofs.Text.Spans
import CodeQuality.Proofs.Time.Timestamp
import CodeQuality.Time.Age

/-!
# What an age tells

The age of a moment is told in the largest unit that has passed since then, and as often as it has.
Each text can be read in one way only, and a moment that lies further back is never told to be
nearer. Between any two moments there are so few nanoseconds that 64 bits are enough on the way.

* `Instant.nanosBetween_eq` — moments outside leap seconds lie on one line.
* `Age.Spans` — the seconds of which an age is told.
* `Age.Tells`, `Age.Says` — the text for a span of time, and the seconds that a text speaks of.
* `Age.tells_between` — all texts, and their order.
-/

namespace CodeQuality

namespace Instant

variable {t now : Instant}

/-- The nanoseconds since 1 January 1970, where no leap seconds are counted. -/
def nanoseconds (t : Instant) : Int := t.seconds * 1000000000 + t.nanos

/-- Does the moment exist, and is it none of a leap second? -/
structure Regular (t : Instant) : Prop where
  valid : t.valid = true
  notLeap : t.isLeap = false

/-- The nanoseconds of the longest span of time: its milliseconds have 63 bits and a sign. -/
def maxSpan : Nat := 9223372036854775807 * 1000000

/-- Are all the numbers that make the seconds between two moments in range? Days and clock are
compared first, each of which makes a span of time, and so does their sum. -/
structure InRange (early late : Instant) : Prop where
  days : ((late.dayNumber - early.dayNumber) * secondsPerDay * nanosPerSecond).natAbs ≤ maxSpan
  clock :
    (clockSeconds early late * nanosPerSecond + ((late.nanos : Int) - early.nanos)).natAbs ≤ maxSpan
  sum : (nanosBetween early late).natAbs ≤ maxSpan
  seconds : (secondsBetween early late).natAbs ≤ 9223372036854775807

/-! ### Spans of time -/

/-- Outside leap seconds all moments lie on one line. -/
theorem nanosBetween_eq (ht : t.isLeap = false) (hnow : now.isLeap = false) :
    nanosBetween t now = now.nanoseconds - t.nanoseconds := by
  have hclock : clockSeconds t now = (now.secondOfDay : Int) - t.secondOfDay := by
    simp [clockSeconds, ht, hnow]
  have hsplit (u : Instant) : u.seconds = u.dayNumber * 86400 + u.secondOfDay := by
    simp only [dayNumber, secondOfDay, secondsPerDay]
    omega
  rw [nanosBetween, hclock, nanoseconds, nanoseconds, hsplit t, hsplit now]
  simp only [secondsPerDay, nanosPerSecond]
  omega

/-- Seconds are cut off towards zero. -/
theorem tdiv_nanosPerSecond_cases (nanos : Int) :
    0 ≤ nanos ∧ nanos.tdiv nanosPerSecond = nanos / 1000000000 ∨
      nanos < 0 ∧ nanos.tdiv nanosPerSecond = -(-nanos / 1000000000) := by
  rcases Int.lt_or_le nanos 0 with h | h
  · refine .inr ⟨h, ?_⟩
    rw [← Int.neg_neg (nanos.tdiv _), ← Int.neg_tdiv, Int.tdiv_eq_ediv_of_nonneg (by omega)]
    rfl
  · exact .inl ⟨h, Int.tdiv_eq_ediv_of_nonneg h⟩

/-- Two times of day are no more than a day apart. -/
theorem natAbs_clockSeconds_le (t now : Instant) : (clockSeconds t now).natAbs ≤ 86400 := by
  have ht := Timestamp.secondOfDay_lt t
  have hnow := Timestamp.secondOfDay_lt now
  simp only [clockSeconds]
  cases t.isLeap <;> cases now.isLeap <;> omega

/-- The days that exist have numbers of 27 bits. -/
theorem natAbs_dayNumber_lt (h : t.valid = true) : t.dayNumber.natAbs < 100000000 := by
  simp only [valid, Bool.and_eq_true, decide_eq_true_eq] at h
  obtain ⟨⟨⟨hfirst, hlast⟩, -⟩, -⟩ := h
  simp only [firstSecond] at hfirst
  simp only [lastSecond] at hlast
  simp only [dayNumber, secondsPerDay]
  omega

/-- The moments that exist are too close to each other for a number to be out of range. -/
theorem inRange_of_valid (ht : t.valid = true) (hnow : now.valid = true) : InRange t now := by
  have hdays : (now.dayNumber - t.dayNumber).natAbs < 200000000 := by
    have := natAbs_dayNumber_lt ht
    have := natAbs_dayNumber_lt hnow
    omega
  have hclock := natAbs_clockSeconds_le t now
  have hnanos : ((now.nanos : Int) - t.nanos).natAbs < 2000000000 := by
    have := Timestamp.nanos_lt ht
    have := Timestamp.nanos_lt hnow
    omega
  have hsum : (nanosBetween t now).natAbs ≤ maxSpan := by
    simp only [nanosBetween, maxSpan, secondsPerDay, nanosPerSecond]
    omega
  refine ⟨?_, ?_, hsum, ?_⟩
  · simp only [maxSpan, secondsPerDay, nanosPerSecond]
    omega
  · simp only [maxSpan, nanosPerSecond]
    omega
  · rw [secondsBetween]
    have hcut := tdiv_nanosPerSecond_cases (nanosBetween t now)
    simp only [maxSpan] at hsum
    omega

end Instant

/-! ### Units -/

namespace AgeUnit

variable {s : Nat} {unit : AgeUnit}

/-- The names of the units, and how many seconds each of them has. -/
def table : List (String × Nat) :=
  [("minute", 60), ("hour", 60 * 60), ("day", 24 * 60 * 60), ("week", 7 * 24 * 60 * 60),
    ("month", 30 * 24 * 60 * 60), ("year", 365 * 24 * 60 * 60)]

theorem mem_all (unit : AgeUnit) : unit ∈ all := by cases unit <;> decide

theorem mem_table_iff {row : String × Nat} :
    row ∈ table ↔ ∃ unit : AgeUnit, (unit.name, unit.seconds) = row := by
  have htable : table = all.reverse.map fun unit => (unit.name, unit.seconds) := rfl
  rw [htable, List.mem_map]
  exact exists_congr fun unit => and_iff_right (List.mem_reverse.mpr unit.mem_all)

theorem sixty_le_seconds (unit : AgeUnit) : 60 ≤ unit.seconds := by cases unit <;> decide

/-- No name stands for two lengths. -/
theorem length_unique {name : String} {length length' : Nat} (h : (name, length) ∈ table)
    (h' : (name, length') ∈ table) : length = length' := by
  have hall : ∀ row ∈ table, ∀ row' ∈ table, row.1 = row'.1 → row.2 = row'.2 := by decide
  exact hall _ h _ h' rfl

/-- The first unit that fits is the longest one, because the units are tried from the longest on. -/
theorem largest_of_largest? (h : largest? s = some unit) :
    unit.seconds ≤ s ∧ ∀ other : AgeUnit, other.seconds ≤ s → other.seconds ≤ unit.seconds := by
  obtain ⟨hfits, longer, shorter, hall, hlonger⟩ := List.find?_eq_some_iff_append.mp h
  refine ⟨of_decide_eq_true hfits, fun other hother => ?_⟩
  have hsorted : all.Pairwise fun unit other => other.seconds ≤ unit.seconds := by decide
  have hmem := other.mem_all
  rw [hall] at hsorted hmem
  rcases List.mem_append.mp hmem with hmem | hmem
  · have hnot := hlonger other hmem
    simp [hother] at hnot
  rcases List.mem_cons.mp hmem with rfl | hmem
  · exact Nat.le_refl _
  · exact (List.pairwise_cons.mp (List.pairwise_append.mp hsorted).2.1).1 other hmem

theorem lt_of_largest? (h : largest? s = none) : s < 60 := by
  have hminute := List.find?_eq_none.mp h _ minute.mem_all
  exact Nat.not_le.mp fun hle => hminute (decide_eq_true hle)

end AgeUnit

/-! ### Ages -/

namespace Age

variable {s s' : Int} {age age' : Age}

/-- Is this the age of what happened `s` seconds ago? -/
inductive Spans (s : Int) : Age → Prop where
  | ahead (h : s < 0) : Spans s .ahead
  | now (hpast : 0 ≤ s) (h : s < 60) : Spans s .now
  | ago {n : Nat} {unit : AgeUnit} (hn : 1 ≤ n)
    (hlargest : ∀ other : AgeUnit, other.seconds ≤ s → other.seconds ≤ unit.seconds)
    (hle : n * unit.seconds ≤ s) (hlt : s < (n + 1) * unit.seconds) : Spans s (.ago n unit)

theorem spans_ofSeconds (s : Int) : Spans s (ofSeconds s) := by
  unfold ofSeconds
  split
  · next h => exact .ahead h
  · next h =>
    have hs : (s.toNat : Int) = s := Int.toNat_of_nonneg (by omega)
    split
    · next hnone =>
      have hlt := AgeUnit.lt_of_largest? hnone
      exact .now (by omega) (by omega)
    · next unit hsome =>
      obtain ⟨hfits, hlargest⟩ := AgeUnit.largest_of_largest? hsome
      have hpos : 0 < unit.seconds := Nat.lt_of_lt_of_le (by decide) unit.sixty_le_seconds
      refine .ago ((Nat.one_le_div_iff hpos).mpr hfits) (fun other hother => ?_) ?_ ?_
      · exact hlargest other (by omega)
      · rw [← hs]
        exact_mod_cast Nat.div_mul_le_self s.toNat unit.seconds
      · rw [← hs]
        exact_mod_cast Nat.lt_mul_of_div_lt (Nat.lt_succ_self _) hpos

/-- The seconds of which an age speaks; what is still ahead is less than what is just now. -/
def seconds : Age → Int
  | ahead => -1
  | now => 0
  | ago n unit => n * unit.seconds

theorem le_mul_seconds {n : Nat} (hn : 1 ≤ n) (unit : AgeUnit) :
    (unit.seconds : Int) ≤ n * unit.seconds := by
  exact_mod_cast Nat.le_mul_of_pos_left unit.seconds hn

/-- What lies further back has no smaller age. -/
theorem seconds_le_seconds (hs : Spans s age) (hs' : Spans s' age') (h : s ≤ s') :
    age.seconds ≤ age'.seconds := by
  cases hs with
  | ahead hneg =>
    cases hs' with
    | ahead | now => decide
    | @ago n unit => exact Int.le_trans (by decide) (Int.natCast_nonneg (n * unit.seconds))
  | now hpast hlt =>
    cases hs' with
    | ahead hneg => omega
    | now => decide
    | @ago n unit => exact Int.natCast_nonneg (n * unit.seconds)
  | @ago n unit hn hlargest hle hlt =>
    have hunit := le_mul_seconds hn unit
    have hsixty := unit.sixty_le_seconds
    cases hs' with
    | ahead hneg => omega
    | now hpast hlt' => omega
    | @ago n' unit' hn' hlargest' hle' hlt' =>
      have hunit' := le_mul_seconds hn' unit'
      show (n * unit.seconds : Int) ≤ n' * unit'.seconds
      -- Either the longer span has a longer unit, which the shorter one does not reach.
      by_cases hfits : unit'.seconds ≤ s
      · have hsame : unit.seconds = unit'.seconds :=
          Nat.le_antisymm (hlargest' unit (by omega)) (hlargest unit' hfits)
        rw [← hsame] at hlt' ⊢
        have hn_lt : (n : Int) < n' + 1 :=
          Int.lt_of_mul_lt_mul_right (by omega) (Int.natCast_nonneg unit.seconds)
        exact Int.mul_le_mul_of_nonneg_right (by omega) (Int.natCast_nonneg unit.seconds)
      · omega

/-! ### Texts -/

/-- The text that tells that something happened so many units ago. -/
def wording (n : Nat) (unit : String) : String :=
  if n = 1 then "1 " ++ unit ++ " ago" else toString n ++ " " ++ unit ++ "s ago"

/-- Is `text` what is told of something that happened so many nanoseconds ago? -/
structure Tells (text : String) (nanos : Int) : Prop where
  ahead : text = "in the future" ↔ nanos ≤ -1000000000
  now : text = "just now" ↔ -1000000000 < nanos ∧ nanos < 60 * 1000000000
  ago : 60 * 1000000000 ≤ nanos → ∃ n unit length, text = wording n unit ∧
    (unit, length) ∈ AgeUnit.table ∧
    (∀ row ∈ AgeUnit.table, row.2 ≤ nanos / 1000000000 → row.2 ≤ length) ∧
    1 ≤ n ∧ n * length ≤ nanos / 1000000000 ∧ nanos / 1000000000 < (n + 1) * length

/-- The seconds of which a text speaks; what is still ahead is less than what is just now. -/
inductive Says (text : String) : Int → Prop where
  | ahead (h : text = "in the future") : Says text (-1)
  | now (h : text = "just now") : Says text 0
  | ago {n : Nat} {unit : String} {length : Nat} (hunit : (unit, length) ∈ AgeUnit.table)
    (h : text = wording n unit) : Says text (n * length)

theorem text_ago (n : Nat) (unit : AgeUnit) : (ago n unit).text = wording n unit.name := by
  show toString n ++ " " ++ unit.name ++ (if n = 1 then "" else "s") ++ " ago" = _
  unfold wording
  split
  · next hn => rw [hn, String.append_empty]; rfl
  · rw [String.append_assoc]; rfl

/-- A wording begins with its number, and a blank comes next. -/
theorem toList_wording (n : Nat) (unit : String) : (wording n unit).toList =
    Text.numeral n ++ ' ' :: (unit.toList ++ if n = 1 then " ago".toList else "s ago".toList) := by
  unfold wording Text.numeral
  split
  · next hn =>
    have hone : Nat.toDigits 10 1 = ['1'] := rfl
    subst hn
    simp [hone]
  · simp

theorem says_text (hs : Spans s age) : Says age.text age.seconds := by
  cases hs with
  | ahead => exact .ahead rfl
  | now => exact .now rfl
  | @ago n unit =>
    exact .ago (AgeUnit.mem_table_iff.mpr ⟨unit, rfl⟩) (text_ago n unit)

/-- No wording is one of the texts without a number. -/
theorem wording_ne {n : Nat} {unit text : String} (h : text.toList.head?.any Char.isDigit = false) :
    text ≠ wording n unit := by
  intro heq
  rw [heq, toList_wording] at h
  obtain ⟨d, ds, hnumeral⟩ := List.exists_cons_of_ne_nil (Text.numeral_ne_nil n)
  have hdigit : d.isDigit = true := Text.isDigit_of_mem_numeral (hnumeral ▸ List.mem_cons_self)
  rw [hnumeral] at h
  have hnot : d.isDigit = false := h
  rw [hdigit] at hnot
  nomatch hnot

/-- Two wordings are equal only if they have the same number and the same unit. -/
theorem wording_inj {n n' : Nat} {unit unit' : String} (h : wording n unit = wording n' unit') :
    n = n' ∧ unit = unit' := by
  have hchars := congrArg String.toList h
  rw [toList_wording, toList_wording] at hchars
  have hdigits (n : Nat) : ∀ c ∈ Text.numeral n, c.isDigit = true :=
    fun _ hc => Text.isDigit_of_mem_numeral hc
  have hblank (rest : List Char) : ∀ c ∈ (' ' :: rest).head?, c.isDigit = false := by
    simp
  -- The numeral is cut off at the blank.
  have hnumeral := congrArg (List.takeWhile Char.isDigit) hchars
  have hrest := congrArg (List.dropWhile Char.isDigit) hchars
  rw [Text.takeWhile_append (hdigits n) (hblank _), Text.takeWhile_append (hdigits n') (hblank _)]
    at hnumeral
  rw [Text.dropWhile_append (hdigits n) (hblank _), Text.dropWhile_append (hdigits n') (hblank _)]
    at hrest
  obtain rfl : n = n' := by
    rw [← Text.numeralValue_numeral n, hnumeral, Text.numeralValue_numeral]
  have hunit := List.append_cancel_right (List.cons.inj hrest).2
  exact ⟨rfl, String.toList_injective hunit⟩

/-- A text speaks of one number of seconds only. -/
theorem Says.unique {text : String} {a b : Int} (ha : Says text a) (hb : Says text b) : a = b := by
  cases ha with
  | ahead h =>
    subst h
    cases hb with
    | ahead => rfl
    | now h => exact absurd h (by decide)
    | ago _ h => exact absurd h (wording_ne (by decide))
  | now h =>
    subst h
    cases hb with
    | ahead h => exact absurd h (by decide)
    | now => rfl
    | ago _ h => exact absurd h (wording_ne (by decide))
  | ago hunit h =>
    subst h
    cases hb with
    | ahead h => exact absurd h.symm (wording_ne (by decide))
    | now h => exact absurd h.symm (wording_ne (by decide))
    | ago hunit' h =>
      obtain ⟨rfl, rfl⟩ := wording_inj h
      rw [AgeUnit.length_unique hunit hunit']

/-- What is told of a span of time is what its seconds are, cut off towards zero. -/
theorem tells_text {nanos : Int} (h : Spans (nanos.tdiv Instant.nanosPerSecond) age) :
    Tells age.text nanos := by
  have hcut := Instant.tdiv_nanosPerSecond_cases nanos
  generalize nanos.tdiv Instant.nanosPerSecond = s at h hcut
  cases h with
  | ahead h =>
    exact ⟨iff_of_true rfl (by omega), iff_of_false (by decide) (by omega), fun _ => by omega⟩
  | now hpast h =>
    exact ⟨iff_of_false (by decide) (by omega), iff_of_true rfl (by omega), fun _ => by omega⟩
  | @ago n unit hn hlargest hle hlt =>
    have hunit := le_mul_seconds hn unit
    have hsixty := unit.sixty_le_seconds
    have hseconds : s = nanos / 1000000000 := by omega
    rw [text_ago]
    refine ⟨iff_of_false (wording_ne (by decide)).symm (by omega),
      iff_of_false (wording_ne (by decide)).symm (by omega), fun _ => ?_⟩
    rw [← hseconds]
    refine ⟨n, unit.name, unit.seconds, rfl, AgeUnit.mem_table_iff.mpr ⟨unit, rfl⟩, ?_, hn, hle,
      hlt⟩
    rintro _ hrow hfits
    obtain ⟨other, rfl⟩ := AgeUnit.mem_table_iff.mp hrow
    exact hlargest other hfits

/-- Between two moments outside leap seconds no number is out of range, and the text tells how long
ago the one was at the other; a moment that lies further back is never told to be nearer. -/
theorem tells_between {t now : Instant} (ht : t.Regular) (hnow : now.Regular) :
    Instant.InRange t now ∧
    Tells (between t now).text (now.nanoseconds - t.nanoseconds) ∧
    ∀ earlier : Instant, earlier.Regular → earlier.nanoseconds ≤ t.nanoseconds →
      ∀ a b, Says (between earlier now).text a → Says (between t now).text b → b ≤ a := by
  have hspans (u : Instant) : Spans (u.secondsBetween now) (between u now) :=
    spans_ofSeconds _
  refine ⟨Instant.inRange_of_valid ht.valid hnow.valid, ?_, ?_⟩
  · rw [← Instant.nanosBetween_eq ht.notLeap hnow.notLeap]
    exact tells_text (hspans t)
  · intro earlier hearlier hle a b ha hb
    rw [ha.unique (says_text (hspans earlier)), hb.unique (says_text (hspans t))]
    refine seconds_le_seconds (hspans t) (hspans earlier) ?_
    unfold Instant.secondsBetween
    rw [Instant.nanosBetween_eq ht.notLeap hnow.notLeap,
      Instant.nanosBetween_eq hearlier.notLeap hnow.notLeap]
    exact Int.tdiv_le_tdiv (by decide) (by omega)

/-- A nanosecond makes the difference between a month and four weeks. -/
theorem tells_between_month :
    let now : Instant := ⟨1502592000, 0⟩
    let t : Instant := ⟨1500000000, 1⟩
    let earlier : Instant := ⟨1500000000, 0⟩
    t.Regular ∧ now.Regular ∧ earlier.Regular ∧ earlier.nanoseconds ≤ t.nanoseconds ∧
      Tells "4 weeks ago" 2591999999999999 ∧
      ∀ a b, Says "1 month ago" a → Says "4 weeks ago" b → b ≤ a := by
  intro now t earlier
  have ht : t.Regular := ⟨by decide, by decide⟩
  have hnow : now.Regular := ⟨by decide, by decide⟩
  have hearlier : earlier.Regular := ⟨by decide, by decide⟩
  have hweeks : (between t now).text = "4 weeks ago" := by decide +kernel
  have hmonth : (between earlier now).text = "1 month ago" := by decide +kernel
  have hnanos : now.nanoseconds - t.nanoseconds = 2591999999999999 := by decide
  obtain ⟨-, htells, horder⟩ := tells_between ht hnow
  have hle := horder earlier hearlier (by decide)
  rw [hweeks, hnanos] at htells
  rw [hweeks, hmonth] at hle
  exact ⟨ht, hnow, hearlier, by decide, htells, hle⟩

end Age
end CodeQuality
