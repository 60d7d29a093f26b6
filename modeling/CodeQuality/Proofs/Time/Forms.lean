import CodeQuality.Proofs.Text.Spans
import CodeQuality.Proofs.Time.Timestamp

/-!
# The forms of a timestamp

A server leaves out the colon of an offset, RFC 3339 demands it. The strict reader and the loose one
go through the same day and the same time of day and differ in the offset only, so that both forms
of a timestamp, whatever its day, fraction and offset, are read as the instant that the calendar and
the clock give it.

* `Stamp` — a day, a time of day and an offset, each within its bounds.
* `Stamp.strict_front`, `Stamp.loose_front` — both readers find the same day and time.
* `Stamp.read?_forms` — every form is read as `Stamp.instant`.
-/

namespace CodeQuality
namespace Timestamp

open Text (numeralValue padded splitDigits)

/-- A day of the years 0 to 9999, a time of day, which may be a leap second, and an offset of less
than a day in hours and minutes. -/
structure Stamp where
  date : Calendar.Date
  hour : Nat
  minute : Nat
  second : Nat
  /-- the digits of a fraction of the second -/
  fraction : Option (List Char)
  sign : Char
  offsetHours : Nat
  offsetMinutes : Nat
  year_nonneg : 0 ≤ date.year
  year_le : date.year ≤ 9999
  date_valid : date.valid = true
  hour_lt : hour < 24
  minute_lt : minute < 60
  second_le : second ≤ 60
  fraction_digits : ∀ ds ∈ fraction, ds ≠ [] ∧ ∀ d ∈ ds, d.isDigit = true
  sign_mem : sign ∈ ['+', '-', '\u2212']
  offsetHours_lt : offsetHours < 24
  offsetMinutes_lt : offsetMinutes < 60

namespace Stamp

/-! ### What is written, and what it denotes -/

/-- The point and the digits of a fraction. -/
def fractionChars (w : Stamp) : List Char :=
  match w.fraction with
  | none => []
  | some ds => '.' :: ds

/-- The day and the time of day. -/
def front (w : Stamp) : List Char :=
  padded 4 w.date.year.toNat ++ '-' :: (padded 2 w.date.month ++ '-' :: (padded 2 w.date.day ++
    'T' :: (padded 2 w.hour ++ ':' :: (padded 2 w.minute ++ ':' :: (padded 2 w.second ++
      w.fractionChars)))))

/-- The form without a colon in the offset. -/
def colonless (w : Stamp) : String :=
  String.ofList (w.front ++ w.sign :: (padded 2 w.offsetHours ++ padded 2 w.offsetMinutes))

/-- The form with a colon in the offset. -/
def rfc3339 (w : Stamp) : String :=
  String.ofList (w.front ++ w.sign :: (padded 2 w.offsetHours ++ ':' :: padded 2 w.offsetMinutes))

/-- The form in UTC. -/
def utc (w : Stamp) : String := String.ofList (w.front ++ ['Z'])

/-- By how many seconds local time is ahead of UTC. -/
def offset (w : Stamp) : Int :=
  let seconds : Int := w.offsetHours * 3600 + w.offsetMinutes * 60
  if w.sign = '+' then seconds else -seconds

/-- The nanoseconds of the fraction, which its first nine digits give; where it has fewer, zeros
take their place. -/
def fractionNanos (w : Stamp) : Nat :=
  match w.fraction with
  | none => 0
  | some ds => numeralValue ((ds ++ List.replicate 9 '0').take 9)

/-- The instant of the timestamp. A leap second is the second before it drawn out. -/
def instant (w : Stamp) : Instant where
  seconds := w.date.number * 86400 + (w.hour * 3600 + w.minute * 60 + min w.second 59) - w.offset
  nanos := (if w.second = 60 then 1000000000 else 0) + w.fractionNanos

/-- The numbers that a reader finds when it takes the offset for `offset`. -/
def reading (w : Stamp) (offset : Int) : Reading :=
  ⟨w.date, w.hour, w.minute, w.second, w.fractionNanos, offset⟩

end Stamp

/-! ### Reading single parts -/

namespace Scan

/-- Nothing is skipped where the text begins with something else. -/
theorem skipping_of_head {p : Char → Bool} {cs : List Char} (h : ∀ c ∈ cs.head?, p c = false) :
    skipping p cs = some ((), cs) :=
  congrArg (fun rest => some ((), rest)) (Text.dropWhile_eq_self h)

theorem not_isBlank_of_isDigit {c : Char} (h : c.isDigit = true) : Text.isBlank c = false := by
  have hdigit : 48 ≤ c.toNat ∧ c.toNat ≤ 57 := by
    simp only [Char.isDigit, Bool.and_eq_true, decide_eq_true_eq] at h
    exact h
  unfold Text.isBlank
  simp
  omega

/-- No numeral begins with a character that is no digit. -/
theorem head?_padded {p : Char → Bool} (hp : ∀ d, d.isDigit = true → p d = false)
    (width n : Nat) (rest : List Char) : ∀ c ∈ (padded width n ++ rest).head?, p c = false := by
  obtain ⟨d, ds, hds, hd⟩ := Text.padded_eq_cons width n
  rw [hds]
  rintro c ⟨⟩
  exact hp _ hd

/-- A fraction counts by its first nine digits. -/
theorem fraction_digits {ds rest : List Char} (hne : ds ≠ []) (hd : ∀ d ∈ ds, d.isDigit = true)
    (hr : ∀ c ∈ rest.head?, c.isDigit = false) :
    fraction ('.' :: (ds ++ rest)) =
      some (numeralValue ((ds ++ List.replicate 9 '0').take 9), rest) := by
  have hsplit : splitDigits 9 (ds ++ rest) = (ds.take 9, ds.drop 9 ++ rest) :=
    Text.splitDigits_append_of_digits hd hr
  have hdrop : (ds.drop 9 ++ rest).dropWhile Char.isDigit = rest :=
    Text.dropWhile_append (fun d h => hd d (List.mem_of_mem_drop h)) hr
  have hvalue : numeralValue ((ds ++ List.replicate 9 '0').take 9) =
      numeralValue (ds.take 9) * Nat.pow 10 (9 - (ds.take 9).length) := by
    have hlen : min (9 - ds.length) 9 = 9 - (ds.take 9).length := by
      rw [List.length_take]
      omega
    rw [List.take_append, List.take_replicate, Text.numeralValue_append_zeros, hlen]
  obtain ⟨d, ds', rfl⟩ := List.exists_cons_of_ne_nil hne
  rw [fraction, hsplit]
  show some (_, (List.drop 9 (d :: ds') ++ rest).dropWhile Char.isDigit) = _
  rw [hdrop, hvalue]

/-- Where no point comes next, there is no fraction. -/
theorem fraction_none {rest : List Char} (h : ∀ c ∈ rest.head?, c ≠ '.') :
    fraction rest = some (0, rest) := by
  unfold fraction
  split
  · next cs => exact absurd rfl (h '.' rfl)
  · rfl

/-- A number of two digits is read by the loose reader, too. -/
theorem looseNumber_padded {n : Nat} (hn : n < 100) (rest : List Char) :
    looseNumber (padded 2 n ++ rest) = some (n, rest) := by
  have hskip : skipping Text.isBlank (padded 2 n ++ rest) = some ((), padded 2 n ++ rest) :=
    skipping_of_head (head?_padded (fun _ => not_isBlank_of_isDigit) 2 n rest)
  rw [looseNumber, scan_bind hskip]
  exact number_padded_of_le (by decide) hn (by decide) rest

/-- A year of four digits is read by the loose reader, too. -/
theorem looseYear_padded {n : Nat} (hn : n < 10000) (rest : List Char) :
    looseYear (padded 4 n ++ rest) = some ((n : Int), rest) := by
  have hskip : skipping Text.isBlank (padded 4 n ++ rest) = some ((), padded 4 n ++ rest) :=
    skipping_of_head (head?_padded (fun _ => not_isBlank_of_isDigit) 4 n rest)
  have hnumber : number 1 4 (padded 4 n ++ rest) = some (n, rest) :=
    number_padded_of_le (by decide) hn (by decide) rest
  rw [looseYear, scan_bind hskip]
  obtain ⟨d, ds, hds, hd⟩ := Text.padded_eq_cons 4 n
  rw [hds, List.cons_append] at hnumber ⊢
  -- The first character is a digit, so that the year has no sign.
  split
  · next heq =>
    obtain ⟨rfl, -⟩ := List.cons.inj heq
    nomatch hd
  · next heq =>
    obtain ⟨rfl, -⟩ := List.cons.inj heq
    nomatch hd
  · rw [scan_bind hnumber]
    rfl

end Scan

/-! ### The day and the time of day -/

namespace Stamp

open Scan

variable (w : Stamp)

/-- The numbers that are written behind the year have at most two digits. -/
theorem two_digits : (w.date.month < 100 ∧ w.date.day < 100) ∧
    w.hour < 100 ∧ w.minute < 100 ∧ w.second < 100 := by
  have hhour := w.hour_lt
  have hminute := w.minute_lt
  have hsecond := w.second_le
  refine ⟨two_digits_of_valid w.date_valid, ?_⟩
  omega

theorem year_lt : w.date.year.toNat < 10000 := by
  have := w.year_le
  omega

/-- An offset begins with its sign or with `Z`: neither a digit nor a point. -/
def Behind (rest : List Char) : Prop :=
  ∀ c ∈ rest.head?, c.isDigit = false ∧ c ≠ '.'

theorem behind_sign (rest : List Char) : Behind (w.sign :: rest) := by
  have hsign := w.sign_mem
  rintro c ⟨⟩
  simp only [List.mem_cons, List.not_mem_nil, or_false] at hsign
  rcases hsign with h | h | h <;> rw [h] <;> decide

theorem fraction_fractionChars {rest : List Char} (hr : Behind rest) :
    Scan.fraction (w.fractionChars ++ rest) = some (w.fractionNanos, rest) := by
  have hdigits := w.fraction_digits
  unfold fractionChars fractionNanos
  cases hf : w.fraction with
  | none => exact fraction_none fun c hc => (hr c hc).2
  | some ds =>
    obtain ⟨hne, hd⟩ := hdigits ds hf
    exact Scan.fraction_digits hne hd fun c hc => (hr c hc).1

theorem front_append (rest : List Char) :
    w.front ++ rest =
      padded 4 w.date.year.toNat ++ '-' :: (padded 2 w.date.month ++ '-' ::
        (padded 2 w.date.day ++ 'T' :: (padded 2 w.hour ++ ':' :: (padded 2 w.minute ++
          ':' :: (padded 2 w.second ++ (w.fractionChars ++ rest)))))) := by
  simp only [front, List.append_assoc, List.cons_append]

theorem reading_year (offset : Int) :
    (⟨⟨(w.date.year.toNat : Int), w.date.month, w.date.day⟩, w.hour, w.minute, w.second,
      w.fractionNanos, offset⟩ : Reading) = w.reading offset := by
  rw [Int.toNat_of_nonneg w.year_nonneg]
  rfl

/-- The strict reader finds the day and the time of day, and goes on with the offset. -/
theorem strict_front {rest : List Char} (hr : Behind rest) :
    strict (w.front ++ rest) = (strictOffset >>= fun o => pure (w.reading o)) rest := by
  obtain ⟨⟨hmonth, hday⟩, hhour, hminute, hsecond⟩ := w.two_digits
  rw [front_append, strict]
  rw [scan_bind (number_padded (by decide) w.year_lt _), scan_bind (char_cons '-' _),
    scan_bind (number_padded (by decide) hmonth _), scan_bind (char_cons '-' _),
    scan_bind (number_padded (by decide) hday _), scan_bind (satisfying_cons (by decide) _),
    scan_bind (number_padded (by decide) hhour _), scan_bind (char_cons ':' _),
    scan_bind (number_padded (by decide) hminute _), scan_bind (char_cons ':' _),
    scan_bind (number_padded (by decide) hsecond _), scan_bind (w.fraction_fractionChars hr)]
  simp only [reading_year]

/-- So does the loose reader. -/
theorem loose_front {rest : List Char} (hr : Behind rest) :
    loose (w.front ++ rest) = (looseOffset >>= fun o => pure (w.reading o)) rest := by
  obtain ⟨⟨hmonth, hday⟩, hhour, hminute, hsecond⟩ := w.two_digits
  rw [front_append, loose]
  rw [scan_bind (looseYear_padded w.year_lt _), scan_bind (char_cons '-' _),
    scan_bind (looseNumber_padded hmonth _), scan_bind (char_cons '-' _),
    scan_bind (looseNumber_padded hday _), scan_bind (char_cons 'T' _),
    scan_bind (looseNumber_padded hhour _), scan_bind (char_cons ':' _),
    scan_bind (looseNumber_padded hminute _), scan_bind (char_cons ':' _),
    scan_bind (looseNumber_padded hsecond _), scan_bind (w.fraction_fractionChars hr)]
  simp only [reading_year]

/-! ### The offset -/

theorem sign_cons (rest : List Char) :
    Scan.sign (w.sign :: rest) = some (w.sign != '+', rest) := by
  have hsign := w.sign_mem
  simp only [List.mem_cons, List.not_mem_nil, or_false] at hsign
  rcases hsign with h | h | h <;> rw [h] <;> rfl

theorem offset_eq : w.offset =
    if w.sign != '+' then -((w.offsetHours : Int) * 3600 + w.offsetMinutes * 60)
    else (w.offsetHours : Int) * 3600 + w.offsetMinutes * 60 := by
  unfold offset
  by_cases h : w.sign = '+' <;> simp [h]

/-- The two halves of an offset are read wherever what stands between them is. -/
theorem signedOffset_halves {between : Scan Unit} (middle : List Char)
    (hb : between (middle ++ padded 2 w.offsetMinutes) = some ((), padded 2 w.offsetMinutes)) :
    signedOffset between (w.sign :: (padded 2 w.offsetHours ++ (middle ++
      padded 2 w.offsetMinutes))) = some (w.offset, []) := by
  have hhours : w.offsetHours < 100 := Nat.lt_trans w.offsetHours_lt (by decide)
  have hminutes : w.offsetMinutes < 100 := Nat.lt_trans w.offsetMinutes_lt (by decide)
  have hlast : number 2 2 (padded 2 w.offsetMinutes) = some (w.offsetMinutes, []) := by
    have h : number 2 2 (padded 2 w.offsetMinutes ++ []) = some (w.offsetMinutes, []) :=
      number_padded (by decide) hminutes []
    rwa [List.append_nil] at h
  have hfirst (rest : List Char) : number 2 2 (padded 2 w.offsetHours ++ rest) =
      some (w.offsetHours, rest) := number_padded (by decide) hhours rest
  rw [signedOffset, scan_bind (w.sign_cons _), scan_bind (hfirst _), scan_bind hb, scan_bind hlast,
    if_neg (Nat.not_le.mpr w.offsetMinutes_lt), offset_eq]
  rfl

/-- The strict reader takes an offset that begins with a sign apart. -/
theorem strictOffset_sign (rest : List Char) :
    strictOffset (w.sign :: rest) = signedOffset (char ':') (w.sign :: rest) := by
  have hsign := w.sign_mem
  simp only [List.mem_cons, List.not_mem_nil, or_false] at hsign
  rcases hsign with h | h | h <;> rw [h] <;> rfl

theorem strictOffset_colon :
    strictOffset (w.sign :: (padded 2 w.offsetHours ++ ':' :: padded 2 w.offsetMinutes)) =
      some (w.offset, []) := by
  rw [strictOffset_sign]
  exact w.signedOffset_halves [':'] (char_cons ':' _)

/-- The strict reader misses the colon. -/
theorem strictOffset_colonless :
    strictOffset (w.sign :: (padded 2 w.offsetHours ++ padded 2 w.offsetMinutes)) = none := by
  have hhours : w.offsetHours < 100 := Nat.lt_trans w.offsetHours_lt (by decide)
  obtain ⟨d, ds, hds, hd⟩ := Text.padded_eq_cons 2 w.offsetMinutes
  have hchar : char ':' (padded 2 w.offsetMinutes) = none := by
    rw [hds]
    refine char_of_ne ?_ ds
    rintro rfl
    nomatch hd
  rw [strictOffset_sign, signedOffset, scan_bind (w.sign_cons _),
    scan_bind (number_padded (by decide) hhours _)]
  show (char ':' (padded 2 w.offsetMinutes)).bind _ = none
  rw [hchar]
  rfl

theorem looseOffset_colonless :
    looseOffset (w.sign :: (padded 2 w.offsetHours ++ padded 2 w.offsetMinutes)) =
      some (w.offset, []) := by
  have hblank : ∀ rest, ∀ c ∈ (w.sign :: rest).head?, Text.isBlank c = false := by
    have hsign := w.sign_mem
    rintro rest c ⟨⟩
    simp only [List.mem_cons, List.not_mem_nil, or_false] at hsign
    rcases hsign with h | h | h <;> rw [h] <;> decide
  have hnone : ∀ d : Char, d.isDigit = true → (d = ':' || Text.isBlank d) = false := by
    intro d hd
    rw [not_isBlank_of_isDigit hd, Bool.or_false, decide_eq_false_iff_not]
    rintro rfl
    nomatch hd
  have hminutes := head?_padded hnone 2 w.offsetMinutes []
  rw [List.append_nil] at hminutes
  rw [looseOffset, scan_bind (skipping_of_head (hblank _))]
  exact w.signedOffset_halves [] (skipping_of_head hminutes)

/-! ### The instant -/

theorem offset_natAbs_lt : w.offset.natAbs < 86400 := by
  have hhours := w.offsetHours_lt
  have hminutes := w.offsetMinutes_lt
  unfold offset
  simp only
  split <;> omega

theorem offset_emod : w.offset % 60 = 0 := by
  unfold offset
  simp only
  split <;> omega

theorem fractionNanos_lt : w.fractionNanos < 1000000000 := by
  have hdigits := w.fraction_digits
  unfold fractionNanos
  cases hf : w.fraction with
  | none => decide
  | some ds =>
    have hlen : ((ds ++ List.replicate 9 '0').take 9).length = 9 := by simp
    have hall : ∀ c ∈ (ds ++ List.replicate 9 '0').take 9, c.isDigit = true := by
      intro c hc
      rcases List.mem_append.mp (List.mem_of_mem_take hc) with hc | hc
      · exact (hdigits ds hf).2 c hc
      · rw [List.eq_of_mem_replicate hc]
        rfl
    have hvalue := Text.numeralValue_lt hall
    rwa [hlen] at hvalue

/-- The years 0 to 9999 lie within three million days of 1970. -/
theorem number_natAbs_lt : w.date.number.natAbs < 3000000 := by
  have hyear := w.year_nonneg
  have hyear' := w.year_le
  have hmonth := Calendar.daysBeforeMonth_le w.date.year w.date.month
  obtain ⟨⟨-, hday⟩, -⟩ := w.two_digits
  unfold Calendar.Date.number Calendar.epoch Calendar.daysBeforeYear
  omega

theorem instant_valid : w.instant.valid = true := by
  have hnumber := w.number_natAbs_lt
  have hoffset := w.offset_natAbs_lt
  have hmod := w.offset_emod
  have hnanos := w.fractionNanos_lt
  have hhour := w.hour_lt
  have hminute := w.minute_lt
  have hsecond := w.second_le
  simp only [Instant.valid, Bool.and_eq_true, Bool.or_eq_true, decide_eq_true_eq]
  simp only [instant, Instant.firstSecond, Instant.lastSecond, Instant.nanosPerSecond]
  split <;> omega

/-- The numbers of a timestamp denote its instant. -/
theorem instant?_reading : (w.reading w.offset).instant? = some w.instant := by
  have hyear := w.year_nonneg
  have hyear' := w.year_le
  have hclock : (w.reading w.offset).onClock = true := by
    simp only [Reading.onClock, Bool.and_eq_true, decide_eq_true_eq]
    exact ⟨⟨⟨w.hour_lt, w.minute_lt⟩, w.second_le⟩, w.offset_natAbs_lt⟩
  have hnanos : (if (w.reading w.offset).second = 60 then
      Instant.nanosPerSecond + (w.reading w.offset).nanos else (w.reading w.offset).nanos) =
      w.instant.nanos := by
    show (if w.second = 60 then 1000000000 + w.fractionNanos else w.fractionNanos) =
      (if w.second = 60 then 1000000000 else 0) + w.fractionNanos
    split <;> simp
  have hvalid := w.instant_valid
  rw [Reading.instant?, if_pos]
  · rw [hnanos, Instant.ofUnix?]
    exact if_pos hvalid
  · simp only [hclock, Bool.and_true, Bool.and_eq_true, decide_eq_true_eq]
    exact ⟨⟨w.date_valid, show -262143 ≤ w.date.year by omega⟩,
      show w.date.year ≤ 262142 by omega⟩

/-- Every form of a timestamp is read as its instant: the one of a server, the one with a colon in
the offset and, where the offset is zero, the one in UTC. -/
theorem read?_forms : read? w.colonless = some w.instant ∧ read? w.rfc3339 = some w.instant ∧
    (w.offset = 0 → read? w.utc = some w.instant) := by
  have hinstant := w.instant?_reading
  refine ⟨?colonless, ?colon, ?utc⟩
  case colonless =>
    have hstrict : strict.whole w.colonless.toList = none := by
      have hnone : strict (w.front ++ w.sign :: (padded 2 w.offsetHours ++
          padded 2 w.offsetMinutes)) = none := by
        rw [strict_front _ (w.behind_sign _)]
        show Option.bind (strictOffset _) _ = none
        rw [strictOffset_colonless]
        rfl
      rw [whole, StateT.run, colonless, String.toList_ofList, hnone]
    have hloose : loose.whole w.colonless.toList = some w.instant := by
      rw [whole, StateT.run, colonless, String.toList_ofList, loose_front _ (w.behind_sign _),
        scan_bind w.looseOffset_colonless]
      exact hinstant
    rw [read?, hstrict, hloose]
    rfl
  case colon =>
    have hstrict : strict.whole w.rfc3339.toList = some w.instant := by
      rw [whole, StateT.run, rfc3339, String.toList_ofList, strict_front _ (w.behind_sign _),
        scan_bind w.strictOffset_colon]
      exact hinstant
    rw [read?, hstrict]
    rfl
  case utc =>
    intro hzero
    have hbehind : Behind ['Z'] := by
      rintro c ⟨⟩
      decide
    have hstrict : strict.whole w.utc.toList = some w.instant := by
      rw [whole, StateT.run, utc, String.toList_ofList, strict_front _ hbehind]
      show (w.reading 0).instant? = _
      rw [← hzero]
      exact hinstant
    rw [read?, hstrict]
    rfl

/-- The last second of 2016, drawn out, by the clock of Greenwich. -/
def leapSecond : Stamp where
  date := ⟨2016, 12, 31⟩
  hour := 23
  minute := 59
  second := 60
  fraction := some ['2', '5']
  sign := '+'
  offsetHours := 0
  offsetMinutes := 0
  year_nonneg := by decide
  year_le := by decide
  date_valid := by decide
  hour_lt := by decide
  minute_lt := by decide
  second_le := by decide
  fraction_digits := by
    rintro ds ⟨⟩
    exact ⟨nofun, List.forall_mem_cons.mpr ⟨rfl, List.forall_mem_singleton.mpr rfl⟩⟩
  sign_mem := by decide
  offsetHours_lt := by decide
  offsetMinutes_lt := by decide

/-- It is read in all three forms. -/
theorem read?_leapSecond :
    leapSecond.colonless = "2016-12-31T23:59:60.25+0000" ∧
    leapSecond.rfc3339 = "2016-12-31T23:59:60.25+00:00" ∧
    leapSecond.utc = "2016-12-31T23:59:60.25Z" ∧
    leapSecond.instant = ⟨1483228799, 1250000000⟩ ∧
    read? leapSecond.colonless = some leapSecond.instant ∧
    read? leapSecond.rfc3339 = some leapSecond.instant ∧
    read? leapSecond.utc = some leapSecond.instant := by
  obtain ⟨hcolonless, hcolon, hutc⟩ := read?_forms leapSecond
  exact ⟨by decide, by decide, by decide, by decide, hcolonless, hcolon, hutc (by decide)⟩

end Stamp
end Timestamp
end CodeQuality
