import CodeQuality.Proofs.Steps
import CodeQuality.Proofs.Text.Numeral
import CodeQuality.Proofs.Text.Spans
import CodeQuality.Url.Address

/-!
# Network addresses read back

An address is read as it has been written, and whatever is read as an address is one: a short
address is a number of 32 bits, and a long one has eight groups of 16 bits.

* `short?_shortChars`, `short?_lt` — short addresses.
* `long?_longChars`, `long?_isLong` — long addresses, where the longest run of zeros is left out.
-/

namespace CodeQuality
namespace Address

open Text (numeral split join split_join)

variable {base n : Nat} {cs : List Char}

/-! ### Numerals -/

theorem hexValue?_digitChar : ∀ n < 16, Percent.hexValue? (Nat.digitChar n) = some n := by decide

theorem numeral?_append (ds : List Char) (d : Char) :
    numeral? base (ds ++ [d]) = (numeral? base ds).bind fun n =>
      (Percent.hexValue? d).bind fun v => if v < base then some (base * n + v) else none := by
  unfold numeral?
  rw [List.foldlM_append]
  refine bind_congr fun n => ?_
  rw [List.foldlM_cons]
  show ((Percent.hexValue? d).bind fun v => if v < base then some (base * n + v) else none).bind
    some = _
  rw [Option.bind_fun_some]

/-- A number is read from its digits. -/
theorem numeral?_toDigits (hbase : 1 < base) (hbase' : base ≤ 16) (n : Nat) :
    numeral? base (Nat.toDigits base n) = some n := by
  have hdigit (ds : List Char) (d : Nat) (hd : d < base) :
      numeral? base (ds ++ [Nat.digitChar d]) =
        (numeral? base ds).bind fun n => some (base * n + d) := by
    rw [numeral?_append, hexValue?_digitChar d (by omega)]
    simp [hd]
  induction n using Nat.strongRecOn with
  | _ n ih =>
    rcases Nat.lt_or_ge n base with hlt | hge
    · rw [Nat.toDigits_of_lt_base hlt]
      have h := hdigit [] n hlt
      simpa [numeral?] using h
    · have hpos : 0 < base := by omega
      rw [Nat.toDigits_of_base_le hbase hge, hdigit _ _ (Nat.mod_lt n hpos),
        ih (n / base) (Nat.div_lt_self (by omega) hbase), Option.bind_some, Nat.div_add_mod]

theorem foldlM_lt {m : Nat}
    (h : cs.foldlM (fun n c => do
      let d ← Percent.hexValue? c
      if d < base then some (base * n + d) else none) m = some n) :
    n < (m + 1) * Nat.pow base cs.length := by
  rw [Nat.pow_eq]
  induction cs generalizing m with
  | nil =>
    cases h
    simp
  | cons c cs ih =>
    rw [List.foldlM_cons] at h
    obtain ⟨m', hm', h⟩ := Option.bind_eq_some_iff.mp h
    obtain ⟨d, -, hd⟩ := Option.bind_eq_some_iff.mp hm'
    split at hd
    · next hlt =>
      cases hd
      have hle : base * m + d + 1 ≤ (m + 1) * base := by
        rw [Nat.add_mul, Nat.mul_comm m base]
        omega
      have hpow := Nat.mul_le_mul_right (base ^ cs.length) hle
      rw [List.length_cons, Nat.pow_succ, Nat.mul_comm _ base, ← Nat.mul_assoc]
      exact Nat.lt_of_lt_of_le (ih h) hpow
    · nomatch hd

/-- A numeral is smaller than its length allows. -/
theorem numeral?_lt (h : numeral? base cs = some n) : n < Nat.pow base cs.length := by
  have := foldlM_lt h
  rwa [Nat.zero_add, Nat.one_mul] at this

/-- The digits of a number in whatever base there is. -/
theorem exists_digitChar {c : Char} (hbase : 1 < base) (hbase' : base ≤ 16)
    (h : c ∈ Nat.toDigits base n) : ∃ v < 16, c = Nat.digitChar v := by
  induction n using Nat.strongRecOn with
  | _ n ih =>
    rcases Nat.lt_or_ge n base with hlt | hge
    · rw [Nat.toDigits_of_lt_base hlt, List.mem_singleton] at h
      exact ⟨n, by omega, h⟩
    · rw [Nat.toDigits_of_base_le hbase hge, List.mem_append, List.mem_singleton] at h
      rcases h with h | h
      · exact ih (n / base) (Nat.div_lt_self (by omega) hbase) h
      · have := Nat.mod_lt n (show 0 < base by omega)
        exact ⟨n % base, by omega, h⟩

/-! ### Short addresses -/

theorem shortPart?_numeral (n : Nat) : shortPart? (numeral n) = some n := by
  have hread : numeral? 10 (numeral n) = some n := numeral?_toDigits (by decide) (by decide) n
  rcases Nat.eq_zero_or_pos n with rfl | hpos
  · rfl
  · have hhead := Text.head?_numeral_ne_zero hpos
    unfold shortPart?
    split
    · next h => exact absurd h (Text.numeral_ne_nil n)
    · next h => simp [h] at hhead
    · next h => simp [h] at hhead
    · next h => simp [h] at hhead
    · exact hread

/-- The octets of a short address. -/
def shortOctets (n : Nat) : List Nat := [n / 0x1000000, n / 0x10000 % 256, n / 0x100 % 256, n % 256]

theorem shortParts_shortChars (n : Nat) :
    shortParts (shortChars n) = (shortOctets n).map numeral := by
  have hsplit : split '.' (shortChars n) = (shortOctets n).map numeral := by
    apply split_join
    · simp
    · intro part hpart hpoint
      obtain ⟨m, -, rfl⟩ := List.mem_map.mp hpart
      nomatch Text.isDigit_of_mem_numeral hpoint
  unfold shortParts
  rw [hsplit, if_neg]
  simp [shortOctets, Text.numeral_ne_nil]

theorem endsInNumber_shortChars (n : Nat) : endsInNumber (shortChars n) = true := by
  have hpart : (!(numeral (n % 256)).isEmpty && (numeral (n % 256)).all Char.isDigit) = true := by
    have hne := Text.numeral_ne_nil (n % 256)
    have hall : (numeral (n % 256)).all Char.isDigit = true :=
      List.all_eq_true.mpr fun c hc => Text.isDigit_of_mem_numeral hc
    simp [hall, hne]
  unfold endsInNumber
  rw [shortParts_shortChars]
  simp only [shortOctets, List.map_cons, List.map_nil, List.getLast?_cons_cons,
    List.getLast?_singleton, hpart, Bool.true_or]

theorem isDigit_of_mem_shortChars {c : Char} (h : c ∈ shortChars n) :
    c.isDigit = true ∨ c = '.' := by
  rcases Text.mem_join h with h | ⟨part, hpart, hc⟩
  · exact .inr h
  · obtain ⟨m, -, rfl⟩ := List.mem_map.mp hpart
    exact .inl (Text.isDigit_of_mem_numeral hc)

/-- A short address is read as it has been written. -/
theorem short?_shortChars (h : n < 0x100000000) : short? (shortChars n) = some n := by
  have hread : ((shortOctets n).map numeral).mapM shortPart? = some (shortOctets n) := by
    simp [shortOctets, List.mapM_cons, shortPart?_numeral]
  unfold short?
  rw [shortParts_shortChars, hread]
  simp [shortOctets]
  omega

theorem foldl_octets_lt {front : List Nat} (h : ∀ part ∈ front, part ≤ 255) {m : Nat} :
    front.foldl (fun n part => 256 * n + part) m < (m + 1) * Nat.pow 256 front.length := by
  rw [Nat.pow_eq]
  induction front generalizing m with
  | nil => simp
  | cons part front ih =>
    have hpart := h part List.mem_cons_self
    have ih := ih (fun q hq => h q (List.mem_cons_of_mem _ hq)) (m := 256 * m + part)
    have hle : 256 * m + part + 1 ≤ (m + 1) * 256 := by omega
    have hpow := Nat.mul_le_mul_right (256 ^ front.length) hle
    rw [List.foldl_cons, List.length_cons, Nat.pow_succ, Nat.mul_comm _ 256, ← Nat.mul_assoc]
    exact Nat.lt_of_lt_of_le ih hpow

/-- What is read as a short address has four octets. -/
theorem short?_lt (h : short? cs = some n) : n < 0x100000000 := by
  obtain ⟨numbers, -, h⟩ := Option.bind_eq_some_iff.mp h
  obtain ⟨last, -, h⟩ := Option.bind_eq_some_iff.mp h
  dsimp only at h
  split at h
  · nomatch h
  · next hguard =>
    generalize hfront : numbers.dropLast = front at h hguard
    simp only [Bool.or_eq_true, decide_eq_true_eq, List.any_eq_true, not_or, not_exists,
      not_and, Nat.not_lt, Nat.not_le] at hguard
    obtain ⟨⟨hlength, hparts⟩, hlast⟩ := hguard
    have hfold := foldl_octets_lt hparts (m := 0)
    cases h
    match hk : front.length, hlength with
    | 0, _ | 1, _ | 2, _ | 3, _ =>
      rw [hk] at hfold hlast
      simp at hfold hlast ⊢
      omega

/-! ### Long addresses -/

/-- Are these the groups of a long address? -/
def IsLong (groups : List Nat) : Prop := groups.length = 8 ∧ ∀ g ∈ groups, g < 0x10000

theorem group?_lt (h : group? cs = some n) : n < 0x10000 := by
  unfold group? at h
  split at h
  · nomatch h
  · next hguard =>
    simp only [Bool.or_eq_true, decide_eq_true_eq, not_or, Nat.not_lt] at hguard
    have hlt := numeral?_lt h
    rw [Nat.pow_eq] at hlt
    have hpow : 16 ^ cs.length ≤ 16 ^ 4 := Nat.pow_le_pow_right (by decide) hguard.2
    omega

theorem octet?_le (h : octet? cs = some n) : n ≤ 255 := by
  unfold octet? at h
  split at h
  · nomatch h
  · obtain ⟨-, hle⟩ := Option.filter_eq_some_iff.mp h
    simpa using hle

theorem mapM_octet?_le {parts : List (List Char)} {ns : List Nat}
    (h : parts.mapM octet? = some ns) : ∀ n ∈ ns, n ≤ 255 := by
  intro n hn
  obtain ⟨part, -, hpart⟩ := exists_of_mapM_some h n hn
  exact octet?_le hpart

theorem embedded?_lt {gs : List Nat} (h : embedded? cs = some gs) : ∀ g ∈ gs, g < 0x10000 := by
  obtain ⟨ns, hns, h⟩ := Option.bind_eq_some_iff.mp h
  have hle := mapM_octet?_le hns
  split at h
  · next a b c d =>
    cases h
    simp only [List.mem_cons, List.not_mem_nil, or_false, forall_eq_or_imp, forall_eq] at hle ⊢
    omega
  · nomatch h

theorem groups?_lt {atEnd : Bool} {parts : List (List Char)} {gs : List Nat}
    (h : groups? atEnd parts = some gs) : ∀ g ∈ gs, g < 0x10000 := by
  induction parts generalizing gs with
  | nil => cases h; simp
  | cons part parts ih =>
    cases parts with
    | nil =>
      unfold groups? at h
      split at h
      · exact embedded?_lt h
      · obtain ⟨g, hg, rfl⟩ := Option.map_eq_some_iff.mp h
        simpa using group?_lt hg
    | cons next later =>
      obtain ⟨g, hg, h⟩ := Option.bind_eq_some_iff.mp h
      obtain ⟨gs', hgs, h⟩ := Option.bind_eq_some_iff.mp h
      cases h
      intro m hm
      rcases List.mem_cons.mp hm with rfl | hm
      · exact group?_lt hg
      · exact ih hgs m hm

theorem groupsOf?_lt {atEnd : Bool} {gs : List Nat} (h : groupsOf? atEnd cs = some gs) :
    ∀ g ∈ gs, g < 0x10000 := by
  unfold groupsOf? at h
  split at h
  · cases h; simp
  · exact groups?_lt h

/-- What is read as a long address is one. -/
theorem long?_isLong {groups : List Nat} (h : long? cs = some groups) : IsLong groups := by
  unfold long? at h
  split at h
  · obtain ⟨gs, hgs, h⟩ := Option.bind_eq_some_iff.mp h
    split at h
    · next hlength =>
      cases h
      exact ⟨hlength, groupsOf?_lt hgs⟩
    · nomatch h
  · obtain ⟨front, hfront, h⟩ := Option.bind_eq_some_iff.mp h
    obtain ⟨back, hback, h⟩ := Option.bind_eq_some_iff.mp h
    split at h
    · next hlength =>
      cases h
      refine ⟨by simp; omega, ?_⟩
      intro g hg
      simp only [List.mem_append, List.mem_replicate] at hg
      rcases hg with (hg | ⟨-, rfl⟩) | hg
      · exact groupsOf?_lt hfront g hg
      · decide
      · exact groupsOf?_lt hback g hg
    · nomatch h

theorem groupChars_ne_nil (g : Nat) : groupChars g ≠ [] := Nat.toDigits_ne_nil

theorem not_mem_groupChars {c : Char} (hc : ∀ v < 16, c ≠ Nat.digitChar v) (g : Nat) :
    c ∉ groupChars g := by
  intro h
  obtain ⟨v, hv, rfl⟩ := exists_digitChar (by decide) (by decide) h
  exact hc v hv rfl

theorem group?_groupChars {g : Nat} (h : g < 0x10000) : group? (groupChars g) = some g := by
  have hlength : (groupChars g).length ≤ 4 :=
    (Nat.length_toDigits_le_iff (by decide) (by decide)).mpr h
  unfold group?
  rw [if_neg (by simp [groupChars_ne_nil]; omega)]
  exact numeral?_toDigits (by decide) (by decide) g

/-- Groups with colons between them. -/
def written (gs : List Nat) : List Char := join ':' (gs.map groupChars)

theorem groups?_groupChars {atEnd : Bool} {gs : List Nat} (h : ∀ g ∈ gs, g < 0x10000) :
    groups? atEnd (gs.map groupChars) = some gs := by
  induction gs with
  | nil => rfl
  | cons g gs ih =>
    have hg := group?_groupChars (h g List.mem_cons_self)
    have ih := ih fun m hm => h m (List.mem_cons_of_mem _ hm)
    cases hgs : gs with
    | nil =>
      have hpoint : (groupChars g).contains '.' = false := by
        simpa using not_mem_groupChars (by decide) g
      simp only [List.map_cons, List.map_nil, groups?, hpoint, hg, Bool.and_false]
      rfl
    | cons next later =>
      rw [← hgs]
      rw [hgs] at ih ⊢
      rw [List.map_cons, List.map_cons, groups?, hg, ← List.map_cons, ih]
      · rfl
      · intro he
        nomatch he

/-- Groups are read as they have been written. -/
theorem groupsOf?_written {atEnd : Bool} {gs : List Nat} (h : ∀ g ∈ gs, g < 0x10000) :
    groupsOf? atEnd (written gs) = some gs := by
  cases hgs : gs with
  | nil => rfl
  | cons g later =>
    rw [← hgs]
    have hsplit : split ':' (written gs) = gs.map groupChars := by
      apply split_join
      · simp [hgs]
      · intro part hpart
        obtain ⟨m, -, rfl⟩ := List.mem_map.mp hpart
        exact not_mem_groupChars (by decide) m
    have hne : ¬(written gs).isEmpty = true := by
      intro he
      rw [List.isEmpty_iff.mp he, hgs] at hsplit
      obtain ⟨hg, -⟩ := List.cons.inj hsplit
      exact groupChars_ne_nil g hg.symm
    unfold groupsOf?
    rw [if_neg hne, hsplit]
    exact groups?_groupChars h

/-! ### The gap -/

/-- No two colons stand in a row, and none at the end. -/
def IsTight : List Char → Prop
  | [] => True
  | [c] => c ≠ ':'
  | c :: d :: cs => ¬(c = ':' ∧ d = ':') ∧ IsTight (d :: cs)

theorem cutAtGap_cons {c : Char} (h : ¬(c = ':' ∧ cs.head? = some ':')) :
    cutAtGap (c :: cs) = (cutAtGap cs).map fun (before, behind) => (c :: before, behind) := by
  rw [cutAtGap]
  intro ds hc hds
  exact h ⟨hc, by rw [hds]; rfl⟩

theorem cutAtGap_tight (h : IsTight cs) : cutAtGap cs = none := by
  induction cs with
  | nil => rfl
  | cons c cs ih =>
    cases cs with
    | nil => rw [cutAtGap_cons (by simp)]; rfl
    | cons d cs => rw [cutAtGap_cons (by simpa using h.1), ih h.2]; rfl

/-- The gap is where two colons stand in a row. -/
theorem cutAtGap_append (h : IsTight cs) (rest : List Char) :
    cutAtGap (cs ++ ':' :: ':' :: rest) = some (cs, rest) := by
  induction cs with
  | nil => rfl
  | cons c cs ih =>
    cases cs with
    | nil =>
      have hc : ¬(c = ':' ∧ (':' :: ':' :: rest).head? = some ':') := fun he => h he.1
      rw [List.cons_append, List.nil_append, cutAtGap_cons hc]
      rfl
    | cons d cs =>
      rw [List.cons_append, cutAtGap_cons (by simpa using h.1), ih h.2]
      rfl

theorem isTight_of_not_mem (h : ':' ∉ cs) : IsTight cs := by
  induction cs with
  | nil => trivial
  | cons c cs ih =>
    rw [List.mem_cons, not_or] at h
    cases cs with
    | nil => exact Ne.symm h.1
    | cons d cs => exact ⟨fun he => h.1 he.1.symm, ih h.2⟩

theorem isTight_append {part : List Char} {d : Char} (hne : part ≠ []) (hpart : ':' ∉ part)
    (hd : d ≠ ':') (h : IsTight (d :: cs)) : IsTight (part ++ ':' :: d :: cs) := by
  induction part with
  | nil => exact absurd rfl hne
  | cons c part ih =>
    rw [List.mem_cons, not_or] at hpart
    cases part with
    | nil => exact ⟨fun he => hpart.1 he.1.symm, fun he => hd he.2, h⟩
    | cons e part => exact ⟨fun he => hpart.1 he.1.symm, ih (by simp) hpart.2⟩

theorem exists_head_written {gs : List Nat} (h : gs ≠ []) :
    ∃ d cs, written gs = d :: cs ∧ d ≠ ':' := by
  obtain ⟨g, later, rfl⟩ := List.exists_cons_of_ne_nil h
  obtain ⟨d, ds, hg⟩ := List.exists_cons_of_ne_nil (groupChars_ne_nil g)
  have hd : d ≠ ':' := by
    rintro rfl
    exact not_mem_groupChars (by decide) g (hg ▸ List.mem_cons_self)
  cases later with
  | nil => exact ⟨d, ds, hg, hd⟩
  | cons next later =>
    refine ⟨d, ds ++ ':' :: written (next :: later), ?_, hd⟩
    rw [written, List.map_cons, Text.join_cons ':' _ (by simp), hg]
    rfl

theorem isTight_written (gs : List Nat) : IsTight (written gs) := by
  induction gs with
  | nil => trivial
  | cons g gs ih =>
    have hcolon : ':' ∉ groupChars g := not_mem_groupChars (by decide) g
    cases hgs : gs with
    | nil => exact isTight_of_not_mem hcolon
    | cons next later =>
      obtain ⟨d, ds, hd, hne⟩ := exists_head_written (show gs ≠ [] by simp [hgs])
      rw [← hgs, written, List.map_cons, Text.join_cons ':' _ (by simp [hgs])]
      rw [hd] at ih
      rw [written] at hd
      rw [hd]
      exact isTight_append (groupChars_ne_nil g) hcolon hne ih

/-- The longest run consists of zeros, and stands where it is said to stand. -/
theorem longestRun_spec (place : Nat) (gs : List Nat) :
    ∃ front back, gs = front ++ (List.replicate (longestRun place gs).2 0 ++ back) ∧
      (longestRun place gs).1 = place + front.length := by
  induction gs generalizing place with
  | nil => exact ⟨[], [], rfl, rfl⟩
  | cons g gs ih =>
    unfold longestRun
    dsimp only
    split
    · refine ⟨[], (g :: gs).dropWhile (· = 0), ?_, rfl⟩
      have hzeros : List.replicate (zeros (g :: gs)) 0 = (g :: gs).takeWhile (· = 0) := by
        symm
        apply List.eq_replicate_of_mem
        intro m hm
        simpa using List.all_eq_true.mp List.all_takeWhile m hm
      rw [hzeros, List.nil_append, List.takeWhile_append_dropWhile]
    · obtain ⟨front, back, hgs, hplace⟩ := ih (place + 1)
      refine ⟨g :: front, back, ?_, ?_⟩
      · rw [List.cons_append, ← hgs]
      · rw [hplace, List.length_cons]
        omega

/-- A long address is read as it has been written, whatever has been left out. -/
theorem long?_longChars {groups : List Nat} (h : IsLong groups) :
    long? (longChars groups) = some groups := by
  obtain ⟨hlength, hlt⟩ := h
  obtain ⟨front, back, hgroups, hplace⟩ := longestRun_spec 0 groups
  unfold longChars
  generalize longestRun 0 groups = run at hgroups hplace ⊢
  obtain ⟨place, length⟩ := run
  dsimp only at hgroups hplace ⊢
  by_cases hshort : length < 2
  · -- All groups are written.
    rw [if_pos hshort]
    show long? (written groups) = some groups
    unfold long?
    rw [cutAtGap_tight (isTight_written groups)]
    dsimp only
    rw [groupsOf?_written hlt]
    simp [hlength]
  · -- The groups that are left out are as many as are missing from eight.
    have hfront : groups.take place = front := by
      rw [hgroups, hplace, Nat.zero_add, List.take_left]
    have hback : groups.drop (place + length) = back := by
      rw [hgroups, hplace, Nat.zero_add, ← List.append_assoc]
      exact List.drop_left' (by simp)
    have hsum : groups.length = front.length + (length + back.length) := by
      rw [hgroups]
      simp
    have hfill : 8 - front.length - back.length = length := by omega
    have hltFront : ∀ g ∈ front, g < 0x10000 := fun g hg =>
      hlt g (List.mem_of_mem_take (hfront ▸ hg))
    have hltBack : ∀ g ∈ back, g < 0x10000 := fun g hg =>
      hlt g (List.mem_of_mem_drop (hback ▸ hg))
    rw [if_neg hshort, hfront, hback]
    show long? (written front ++ ':' :: ':' :: written back) = some groups
    unfold long?
    rw [cutAtGap_append (isTight_written front)]
    dsimp only
    rw [groupsOf?_written hltFront, groupsOf?_written hltBack]
    show (if front.length + back.length ≤ 7 then _ else none) = some groups
    rw [if_pos (by omega), hfill, List.append_assoc, ← hgroups]

theorem mem_longChars {groups : List Nat} {c : Char} (h : c ∈ longChars groups) :
    c = ':' ∨ ∃ v < 16, c = Nat.digitChar v := by
  have hwritten {gs : List Nat} (hc : c ∈ written gs) :
      c = ':' ∨ ∃ v < 16, c = Nat.digitChar v := by
    rcases Text.mem_join hc with hc | ⟨part, hpart, hc⟩
    · exact .inl hc
    · obtain ⟨g, -, rfl⟩ := List.mem_map.mp hpart
      exact .inr (exists_digitChar (by decide) (by decide) hc)
  unfold longChars at h
  dsimp only at h
  split at h
  · exact hwritten h
  · rcases List.mem_append.mp h with h | h
    · exact hwritten h
    · rcases List.mem_cons.mp h with h | h
      · exact .inl h
      · rcases List.mem_cons.mp h with h | h
        · exact .inl h
        · exact hwritten h

end Address
end CodeQuality
