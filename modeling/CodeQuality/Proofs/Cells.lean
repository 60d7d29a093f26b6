import CodeQuality.Proofs.Run.Settings
import CodeQuality.Proofs.Text.Numeral

/-!
# Settings as cells

Each setting is a cell of its own. Whatever sequence of changes is made, under whatever names and
with whatever values, a cell holds what the last change of it has left there: the canonical form of
a value that was accepted, or the default if it was reset. A name that is none of a setting and a
value that is refused change nothing.

* `Settings.Canonical` — the values that a cell takes, and what it holds then.
* `Settings.canonical_iff` — these are the values that are accepted.
* `Settings.Step.Treats` — what a change does.
* `Settings.Ends` — what a cell holds after a sequence of changes.
* `Settings.get_run_iff` — a cell after a sequence of changes.
-/

namespace CodeQuality

namespace SettingKey

theorem ofName?_name (key : SettingKey) : ofName? key.name = some key := by
  cases key <;> decide

theorem name_of_ofName? {name : String} {key : SettingKey} (h : ofName? name = some key) :
    key.name = name := by
  simpa using List.find?_some h

/-- Only the names of the settings lead to one. -/
theorem ofName?_eq_none_iff {name : String} :
    ofName? name = none ↔ name ∉ ["url", "mock_mode", "timeout_secs", "default_project"] := by
  rw [ofName?, List.find?_eq_none]
  simp [all, SettingKey.name, eq_comm]

end SettingKey

/-! ### Numerals -/

/-- Is `text` a numeral of these digits, perhaps with a plus sign in front? -/
structure IsNumeral (text : String) (digits : List Char) : Prop where
  ne_nil : digits ≠ []
  isDigit : ∀ c ∈ digits, c.isDigit = true
  spelled : text.toList = digits ∨ text.toList = '+' :: digits

section Count

variable {text : String} {cs digits : List Char} {m n : Nat}

/-- Digits are taken up as long as the count that they make is not too large. -/
theorem readDigits_ok_iff (hn : n ≤ maxCount) :
    readDigits n cs = .ok m ↔ (∀ c ∈ cs, c.isDigit = true) ∧
      cs.foldl (fun n c => 10 * n + Text.digitValue c) n = m ∧ m ≤ maxCount := by
  induction cs generalizing n with
  | nil =>
    constructor
    · intro h
      obtain rfl := Except.ok.inj h
      exact ⟨nofun, rfl, hn⟩
    · intro h
      obtain ⟨-, rfl, -⟩ := h
      rfl
  | cons c cs ih =>
    rw [readDigits, List.foldl_cons, List.forall_mem_cons]
    by_cases hc : c.isDigit = true
    · have hmono := Text.le_foldl_digits cs (10 * n + Text.digitValue c)
      simp only [hc, if_true, true_and]
      split
      · next hlarge =>
        constructor
        · nofun
        · intro h
          obtain ⟨-, rfl, hm⟩ := h
          omega
      · next hfits => exact ih (Nat.not_lt.mp hfits)
    · simp [hc]

/-- Digits make a count if it is not too large. -/
theorem ofDigits_ok_iff {count : UInt64} : (readDigits 0 cs).map UInt64.ofNat = .ok count ↔
    (∀ c ∈ cs, c.isDigit = true) ∧ Text.numeralValue cs = count.toNat := by
  rw [map_ok_iff]
  constructor
  · intro h
    obtain ⟨m, hm, rfl⟩ := h
    obtain ⟨hall, hvalue, hle⟩ := (readDigits_ok_iff (Nat.zero_le _)).mp hm
    unfold maxCount at hle
    refine ⟨hall, hvalue.trans ?_⟩
    rw [UInt64.toNat_ofNat']
    omega
  · intro h
    obtain ⟨hall, hvalue⟩ := h
    have hle : count.toNat ≤ maxCount := by
      have := count.toNat_lt
      unfold maxCount
      omega
    refine ⟨count.toNat, (readDigits_ok_iff (Nat.zero_le _)).mpr ⟨hall, hvalue, hle⟩, ?_⟩
    exact UInt64.ofNat_toNat

/-- Behind a plus sign all is digits. -/
theorem isNumeral_plus_iff (h : text.toList = '+' :: cs) :
    IsNumeral text digits ↔ digits = cs ∧ cs ≠ [] ∧ ∀ c ∈ cs, c.isDigit = true := by
  constructor
  · intro hnumeral
    obtain ⟨hne, hdigit, hspelled | hspelled⟩ := hnumeral
    · have hplus : '+'.isDigit = true := hdigit '+' (by simp [← hspelled, h])
      exact absurd hplus (by decide)
    · obtain rfl : cs = digits := List.tail_eq_of_cons_eq (h.symm.trans hspelled)
      exact ⟨rfl, hne, hdigit⟩
  · intro hdigits
    obtain ⟨rfl, hne, hdigit⟩ := hdigits
    exact ⟨hne, hdigit, .inr h⟩

/-- Without a plus sign the whole text is digits. -/
theorem isNumeral_bare_iff (h : ∀ cs, text.toList ≠ '+' :: cs) :
    IsNumeral text digits ↔
      digits = text.toList ∧ text.toList ≠ [] ∧ ∀ c ∈ text.toList, c.isDigit = true := by
  constructor
  · intro hnumeral
    obtain ⟨hne, hdigit, hspelled | hspelled⟩ := hnumeral
    · rw [hspelled]
      exact ⟨rfl, hne, hdigit⟩
    · exact absurd hspelled (h _)
  · intro hdigits
    obtain ⟨rfl, hne, hdigit⟩ := hdigits
    exact ⟨hne, hdigit, .inl rfl⟩

/-- A count is spelled by a numeral of its digits. -/
theorem readCount_ok_iff {count : UInt64} : readCount text = .ok count ↔
    ∃ digits, IsNumeral text digits ∧ Text.numeralValue digits = count.toNat := by
  unfold readCount
  split
  · next hnil =>
    have hbare : ∀ cs, text.toList ≠ '+' :: cs := by
      simp [hnil]
    simp [isNumeral_bare_iff hbare, hnil]
  · next hsign => simp [isNumeral_plus_iff hsign]
  · next ds hne hsign =>
    simp only [ofDigits_ok_iff, isNumeral_plus_iff hsign, and_assoc, exists_eq_left]
    exact (and_iff_right fun hnil => hne hnil).symm
  · next hnil _ hbare =>
    simp only [ofDigits_ok_iff, isNumeral_bare_iff hbare, and_assoc, exists_eq_left]
    exact (and_iff_right fun hempty => hnil hempty).symm

/-- The digits of a numeral are zeros and, behind them, its shortest form. -/
theorem exists_zeros_append (digits : List Char) :
    ∃ zeros rest, digits = zeros ++ rest ∧ (∀ c ∈ zeros, c = '0') ∧ rest.head? ≠ some '0' := by
  refine ⟨digits.takeWhile (· = '0'), digits.dropWhile (· = '0'),
    List.takeWhile_append_dropWhile.symm, ?_, ?_⟩
  · intro c hc
    simpa using List.all_eq_true.mp List.all_takeWhile c hc
  · intro h
    have hhead := List.head?_dropWhile_not (fun c => decide (c = '0')) digits
    rw [h] at hhead
    nomatch hhead

end Count

namespace Settings

variable {s s' : Settings} {key other : SettingKey} {value : String}
  {text start : Option String}

/-! ### What a cell takes -/

/-- Does a cell take this value, and is this the text that it holds then? -/
inductive Canonical : SettingKey → String → Option String → Prop where
  | url (value : String) : Canonical .url value (some (normalizeServer value))
  | on : Canonical .mockMode "true" (some "true")
  | off : Canonical .mockMode "false" (some "false")
  /-- a numeral without its sign and the zeros in front, or nothing if it is zero -/
  | timeoutSecs {value : String} {zeros digits : List Char} (h : IsNumeral value (zeros ++ digits))
    (hzeros : ∀ c ∈ zeros, c = '0') (hlead : digits.head? ≠ some '0')
    (hle : Text.numeralValue digits ≤ 18446744073709551615) :
    Canonical .timeoutSecs value (if digits = [] then none else some (String.ofList digits))
  | defaultProject (value : String) : Canonical .defaultProject value (some value)

/-- What a cell holds when it is reset. -/
def initial : SettingKey → Option String
  | .url | .timeoutSecs | .defaultProject => none
  | .mockMode => some "false"

/-- A timeout is held as the shortest numeral of its value. -/
theorem text_of_digits {digits : List Char} {count : UInt64}
    (hdigit : ∀ c ∈ digits, c.isDigit = true)
    (hlead : digits.head? ≠ some '0') (hvalue : Text.numeralValue digits = count.toNat) :
    (if count = 0 then none else some count).map (fun n => toString n.toNat) =
      if digits = [] then none else some (String.ofList digits) := by
  by_cases hnil : digits = []
  · subst hnil
    have hzero : count = 0 := UInt64.toNat_inj.mp hvalue.symm
    simp [hzero]
  · have hnumeral := Text.numeral_numeralValue hdigit hnil hlead
    have hcount : count ≠ 0 := by
      rintro rfl
      rw [hvalue] at hnumeral
      exact hlead (hnumeral ▸ rfl)
    rw [if_neg hcount, if_neg hnil, Option.map_some, ← hnumeral, hvalue]
    rfl

/-- The values that are accepted for a setting are those that its cell takes. -/
theorem canonical_iff (s : Settings) : Canonical key value text ↔
    ∃ s', s.set key value = .ok s' ∧ s'.get key = text := by
  constructor
  · intro h
    cases h with
    | url | defaultProject => exact ⟨_, rfl, rfl⟩
    | on | off => exact ⟨_, rfl, rfl⟩
    | @timeoutSecs _ zeros digits h hzeros hlead hle =>
      have hbound : Text.numeralValue digits < 18446744073709551616 := by omega
      have hvalue : (UInt64.ofNat (Text.numeralValue digits)).toNat = Text.numeralValue digits := by
        rw [UInt64.toNat_ofNat']
        exact Nat.mod_eq_of_lt hbound
      have hread : readCount value = .ok (.ofNat (Text.numeralValue digits)) := by
        apply readCount_ok_iff.mpr
        exact ⟨_, h, (Text.numeralValue_zeros_append hzeros digits).trans hvalue.symm⟩
      refine ⟨_, by rw [set, hread], ?_⟩
      exact text_of_digits (List.forall_mem_append.mp h.isDigit).2 hlead hvalue.symm
  · intro h
    obtain ⟨s', hset, rfl⟩ := h
    cases key with
    | url =>
      obtain rfl := Except.ok.inj hset
      exact .url value
    | defaultProject =>
      obtain rfl := Except.ok.inj hset
      exact .defaultProject value
    | mockMode =>
      rw [set] at hset
      unfold readFlag? at hset
      split at hset
      · next hflag =>
        obtain rfl := Except.ok.inj hset
        split at hflag
        · cases hflag
          exact .on
        · cases hflag
          exact .off
        · nomatch hflag
      · nomatch hset
    | timeoutSecs =>
      rw [set] at hset
      split at hset
      · next count hread =>
        obtain rfl := Except.ok.inj hset
        obtain ⟨digits, hnumeral, hvalue⟩ := readCount_ok_iff.mp hread
        obtain ⟨zeros, rest, rfl, hzeros, hlead⟩ := exists_zeros_append digits
        rw [Text.numeralValue_zeros_append hzeros] at hvalue
        have hdigit := (List.forall_mem_append.mp hnumeral.isDigit).2
        have hle : Text.numeralValue rest ≤ 18446744073709551615 := by
          have := count.toNat_lt
          omega
        rw [get, text_of_digits hdigit hlead hvalue]
        exact .timeoutSecs hnumeral hzeros hlead hle
      · nomatch hset

theorem get_unset (s : Settings) (key : SettingKey) : (s.unset key).get key = initial key := by
  cases key <;> rfl

/-! ### One change -/

/-- A change of the setting that is called `name`, if there is one. -/
inductive Step where
  | set (name value : String)
  | unset (name : String)
deriving DecidableEq, Repr

namespace Step

def name : Step → String
  | set name _ | unset name => name

/-- Whether there was such a setting, or why the value is refused; and the settings then. -/
def take (s : Settings) : Step → Except SettingsError Bool × Settings
  | set name value =>
    match SettingKey.ofName? name with
    | none => (.ok false, s)
    | some key =>
      match s.set key value with
      | .ok s' => (.ok true, s')
      | .error e => (.error e, s)
  | unset name =>
    match SettingKey.ofName? name with
    | none => (.ok false, s)
    | some key => (.ok true, s.unset key)

/-- Is this an accepted change of the cell, and what does it leave there? -/
inductive Leaves (key : SettingKey) : Step → Option String → Prop where
  | set {value : String} {text : Option String} (h : Canonical key value text) :
    Leaves key (set key.name value) text
  | unset : Leaves key (unset key.name) (initial key)

/-- What a change does to the settings. -/
structure Treats (s : Settings) (step : Step) : Prop where
  unknown : step.name ∉ ["url", "mock_mode", "timeout_secs", "default_project"] →
    step.take s = (.ok false, s)
  refused : ∀ (key : SettingKey) (value : String), step = set key.name value →
    (∀ text, ¬ Canonical key value text) → ∃ e, step.take s = (.error e, s)
  accepted : ∀ key text, step.Leaves key text → (step.take s).1 = .ok true ∧
    (step.take s).2.get key = text ∧ ∀ other, other ≠ key → (step.take s).2.get other = s.get other

variable {step : Step}

theorem take_of_unknown (h : SettingKey.ofName? step.name = none) :
    step.take s = (.ok false, s) := by
  cases step with
  | set name value => rw [take, show SettingKey.ofName? name = none from h]
  | unset name => rw [take, show SettingKey.ofName? name = none from h]

theorem take_set (s : Settings) (key : SettingKey) (value : String) :
    (set key.name value).take s =
      match s.set key value with
      | .ok s' => (.ok true, s')
      | .error e => (.error e, s) := by
  rw [take, key.ofName?_name]

theorem take_unset (s : Settings) (key : SettingKey) :
    (unset key.name).take s = (.ok true, s.unset key) := by
  rw [take, key.ofName?_name]

/-- A value that the cell does not take is refused. -/
theorem take_of_refused (h : ∀ text, ¬ Canonical key value text) :
    ∃ e, (set key.name value).take s = (.error e, s) := by
  rw [take_set]
  cases hset : s.set key value with
  | error e => exact ⟨e, rfl⟩
  | ok s' => exact absurd ((canonical_iff s).mpr ⟨s', hset, rfl⟩) (h _)

/-- An accepted change leaves what it is to leave, and no other cell sees it. -/
theorem take_of_leaves (h : step.Leaves key text) : (step.take s).1 = .ok true ∧
    (step.take s).2.get key = text ∧
    ∀ other, other ≠ key → (step.take s).2.get other = s.get other := by
  cases h with
  | set h =>
    obtain ⟨s', hset, htext⟩ := (canonical_iff s).mp h
    rw [take_set, hset]
    exact ⟨rfl, htext, fun other hne => get_set_of_ne hset hne⟩
  | unset =>
    rw [take_unset]
    exact ⟨rfl, s.get_unset key, fun other hne => get_unset_of_ne hne⟩

theorem treats_take (s : Settings) (step : Step) : step.Treats s where
  unknown h := take_of_unknown (SettingKey.ofName?_eq_none_iff.mpr h)
  refused := by
    rintro key value rfl h
    exact take_of_refused h
  accepted _ _ h := take_of_leaves h

/-- A change that leaves nothing in a cell leaves the cell as it was. -/
theorem get_take_of_not_leaves (h : ∀ text, ¬ step.Leaves key text) :
    (step.take s).2.get key = s.get key := by
  cases hname : SettingKey.ofName? step.name with
  | none => rw [take_of_unknown hname]
  | some found =>
    have hfound := SettingKey.name_of_ofName? hname
    cases step with
    | unset name =>
      obtain rfl : found.name = name := hfound
      have hne : key ≠ found := by
        rintro rfl
        exact h _ .unset
      rw [take_unset]
      exact get_unset_of_ne hne
    | set name value =>
      obtain rfl : found.name = name := hfound
      rw [take_set]
      cases hset : s.set found value with
      | error e => rfl
      | ok s' =>
        have hne : key ≠ found := by
          rintro rfl
          exact h _ (.set ((canonical_iff s).mpr ⟨s', hset, rfl⟩))
        exact get_set_of_ne hset hne

end Step

/-! ### A sequence of changes -/

/-- The settings after a sequence of changes. -/
def run (s : Settings) (steps : List Step) : Settings :=
  steps.foldl (fun s step => (step.take s).2) s

/-- What a cell holds after a sequence of changes: what it has held if there is no accepted change
of it, or else what the last one leaves. -/
inductive Ends (key : SettingKey) (start : Option String) : List Step → Option String → Prop where
  | kept {steps : List Step} (h : ∀ step ∈ steps, ∀ text, ¬ step.Leaves key text) :
    Ends key start steps start
  | last {earlier later : List Step} {step : Step} {text : Option String}
    (hstep : step.Leaves key text)
    (hlater : ∀ step ∈ later, ∀ text, ¬ step.Leaves key text) :
    Ends key start (earlier ++ step :: later) text

variable {steps : List Step}

/-- Changes that leave nothing in a cell leave the cell as it was. -/
theorem get_run_of_not_leaves (h : ∀ step ∈ steps, ∀ text, ¬ step.Leaves key text) :
    (s.run steps).get key = s.get key := by
  induction steps generalizing s with
  | nil => rfl
  | cons step steps ih =>
    obtain ⟨hfirst, hrest⟩ := List.forall_mem_cons.mp h
    exact (ih hrest).trans (Step.get_take_of_not_leaves hfirst)

theorem get_of_ends (h : Ends key (s.get key) steps text) : (s.run steps).get key = text := by
  cases h with
  | kept h => exact get_run_of_not_leaves h
  | @last earlier later step text hstep hlater =>
    have hrun : s.run (earlier ++ step :: later) = ((step.take (s.run earlier)).2).run later := by
      simp [run]
    rw [hrun, get_run_of_not_leaves hlater]
    exact (Step.take_of_leaves hstep).2.1

/-- Either there is an accepted change of a cell, and then there is a last one, or there is none. -/
theorem exists_ends (key : SettingKey) (start : Option String) (steps : List Step) :
    ∃ text, Ends key start steps text := by
  induction steps with
  | nil => exact ⟨start, .kept nofun⟩
  | cons step steps ih =>
    obtain ⟨text, hends⟩ := ih
    cases hends with
    | @last earlier later _ _ hlast hlater =>
      rw [← List.cons_append]
      exact ⟨text, .last hlast hlater⟩
    | kept hnone =>
      by_cases hstep : ∃ text, step.Leaves key text
      · obtain ⟨text, hstep⟩ := hstep
        exact ⟨text, (.last hstep hnone : Ends key start ([] ++ step :: steps) text)⟩
      · simp only [not_exists] at hstep
        exact ⟨start, .kept (List.forall_mem_cons.mpr ⟨hstep, hnone⟩)⟩

/-- A change under a name that is none of a setting and one to a value that is refused leave the
settings as they were; an accepted one leaves all cells but its own as they were. After a sequence
of changes a cell holds what the last accepted change of it has left, and what it has held before if
there is none. -/
theorem get_run_iff (s : Settings) : (∀ step : Step, step.Treats s) ∧
    ∀ (steps : List Step) (key : SettingKey) (text : Option String),
      (s.run steps).get key = text ↔ Ends key (s.get key) steps text := by
  refine ⟨Step.treats_take s, fun steps key text => ⟨?_, get_of_ends⟩⟩
  rintro rfl
  obtain ⟨text, hends⟩ := exists_ends key (s.get key) steps
  exact get_of_ends hends ▸ hends

end Settings
end CodeQuality
