import CodeQuality.Url.Punycode
import Mathlib.Data.List.Basic

/-!
# Labels read back from Punycode

What has been written for a label is read as this label. The characters that are no ASCII come in
ascending order, those that are alike in the order of their places; at any time the reader has put
in what the writer has passed, and the number to come tells how far the writer has counted since.

* `Punycode.decodeNumber_encodeNumber` — numbers.
* `Punycode.Follows` — how far the reader has come when the writer has passed a part of the label.
* `Punycode.decode_encode_label` — labels.
-/

namespace CodeQuality
namespace Punycode

/-! ### Digits -/

theorem value?_digit : ∀ n < 36, value? (digit n) = some n := by decide

variable {bias fuel k q n : Nat} {c : Char}

theorem threshold_pos (bias k : Nat) : 0 < threshold bias k := by
  unfold threshold tMax tMin
  omega

theorem threshold_le (bias k : Nat) : threshold bias k ≤ 26 := by
  unfold threshold tMax
  omega

/-- A digit that is not the last one is no less than the threshold. -/
theorem digit_lt (bias k q : Nat) :
    threshold bias k + q % (base - threshold bias k) < 36 := by
  have hle := threshold_le bias k
  have hmod : q % (base - threshold bias k) < base - threshold bias k :=
    Nat.mod_lt _ (by unfold base; omega)
  unfold base at *
  omega

/-- What is left of a number behind a digit is less than the number. -/
theorem rest_lt (bias k : Nat) (h : ¬q < threshold bias k) :
    (q - threshold bias k) / (base - threshold bias k) < q := by
  have hpos := threshold_pos bias k
  calc (q - threshold bias k) / (base - threshold bias k)
      ≤ q - threshold bias k := Nat.div_le_self _ _
    _ < q := by omega

/-- What a number is written with are digits. -/
theorem exists_digit_of_mem (hq : q ≤ fuel) (h : c ∈ encodeNumber bias fuel k q) :
    ∃ n < 36, c = digit n := by
  induction fuel generalizing k q with
  | zero =>
    obtain rfl := Nat.le_zero.mp hq
    exact ⟨0, by decide, List.mem_singleton.mp h⟩
  | succ fuel ih =>
    rw [encodeNumber] at h
    split at h
    · next hlt =>
      have hle := threshold_le bias k
      exact ⟨q, by omega, List.mem_singleton.mp h⟩
    · next hlt =>
      rcases List.mem_cons.mp h with rfl | h
      · exact ⟨_, digit_lt bias k _, rfl⟩
      · have hrest := rest_lt bias k hlt
        exact ih (by omega) h

theorem encodeNumber_ne_nil (bias fuel k q : Nat) : encodeNumber bias fuel k q ≠ [] := by
  cases fuel with
  | zero => exact List.cons_ne_nil _ _
  | succ fuel =>
    rw [encodeNumber]
    split <;> exact List.cons_ne_nil _ _

/-! ### Numbers -/

/-- A number is read as it has been written, whatever comes behind it. -/
theorem decodeNumber_encodeNumber (hq : q ≤ fuel) (weight i : Nat) (rest : List Char) :
    decodeNumber bias (encodeNumber bias fuel k q ++ rest) k weight i =
      some (i + q * weight, rest) := by
  have hpos := threshold_pos bias k
  induction fuel generalizing k q weight i with
  | zero =>
    obtain rfl := Nat.le_zero.mp hq
    simp [encodeNumber, decodeNumber, value?_digit 0 (by decide), hpos]
  | succ fuel ih =>
    have hle := threshold_le bias k
    rw [encodeNumber]
    split
    · next hlt => simp [decodeNumber, value?_digit q (by omega), hlt]
    · next hlt =>
      have hrest := rest_lt bias k hlt
      have hmore : ¬threshold bias k + (q - threshold bias k) % (base - threshold bias k) <
          threshold bias k := Nat.not_lt.mpr (Nat.le_add_right _ _)
      have hsum : threshold bias k + (q - threshold bias k) % (base - threshold bias k) +
          (q - threshold bias k) / (base - threshold bias k) * (base - threshold bias k) = q := by
        have hmod := Nat.mod_add_div' (q - threshold bias k) (base - threshold bias k)
        omega
      rw [List.cons_append, decodeNumber, value?_digit _ (digit_lt bias k _)]
      show (if _ then _ else _) = _
      rw [if_neg hmore, ih (by omega) _ _ (threshold_pos _ _)]
      rw [Nat.add_assoc i, Nat.mul_comm weight, ← Nat.mul_assoc, ← Nat.add_mul, hsum]

/-! ### Characters -/

/-- What has been put in of a label when the writer, on its way through it to put in the characters
with the number `n`, has passed `front` and has `back` before it: all characters with a smaller
number, and those with this number that it has passed. -/
def partly (n : Nat) (front back : List Char) : List Char :=
  front.filter (·.toNat ≤ n) ++ back.filter (·.toNat < n)

/-- To pass another character makes no difference. -/
theorem partly_concat (front back : List Char) (hc : c.toNat ≠ n) :
    partly n (front ++ [c]) back = partly n front (c :: back) := by
  unfold partly
  rw [List.filter_append, List.append_assoc]
  congr 1
  rcases Nat.lt_or_gt_of_ne hc with hlt | hgt
  · simp [hlt, Nat.le_of_lt hlt]
  · simp [Nat.not_lt.mpr (Nat.le_of_lt hgt), Nat.not_le.mpr hgt]

theorem partly_cons_self (c : Char) (front back : List Char) :
    partly c.toNat front (c :: back) =
      front.filter (·.toNat ≤ c.toNat) ++ back.filter (·.toNat < c.toNat) := by
  simp [partly]

theorem partly_concat_self (c : Char) (front back : List Char) :
    partly c.toNat (front ++ [c]) back =
      front.filter (·.toNat ≤ c.toNat) ++ c :: back.filter (·.toNat < c.toNat) := by
  simp [partly]

/-- How far the reader has come at that time. -/
structure Follows (label : List Char) (n : Nat) (front back : List Char) (s : State) : Prop where
  handled : s.handled = (partly n front back).length
  digits : ∀ c ∈ s.written, ∃ n < 36, c = digit n
  /-- The reader has put in `made` characters, the last one with the number `code` in front of the
  place `i`, and the writer has counted on from there. -/
  reads : ∃ code i made, code ≤ n ∧ s.handled = (basic label).length + made ∧
    made ≤ s.written.length ∧ (i = 0 ↔ made = 0) ∧
    s.delta + i = (n - code) * (s.handled + 1) + (front.filter (·.toNat ≤ n)).length ∧
    ∀ fuel rest,
      decodeFrom (fuel + made) (s.written.reverse ++ rest) initialCode 0 initialBias (basic label) =
        decodeFrom fuel rest code i s.bias (partly n front back)

section Pass

variable {label front back : List Char} {s : State}

/-- The writer passes a smaller character, and one with a larger number. -/
theorem Follows.pass (h : Follows label n front (c :: back) s) (hc : c.toNat ≠ n) :
    Follows label n (front ++ [c]) back (encodeStep (basic label).length n s c.toNat) := by
  obtain ⟨hhandled, hdigits, code, i, made, hcode, hmade, henough, hfirst, hdelta, hreads⟩ := h
  have hpartly := partly_concat front back hc
  rcases Nat.lt_or_gt_of_ne hc with hlt | hgt
  · have hfront : ((front ++ [c]).filter (·.toNat ≤ n)).length =
        (front.filter (·.toNat ≤ n)).length + 1 := by
      simp [List.filter_append, Nat.le_of_lt hlt]
    rw [encodeStep, if_pos hlt]
    refine ⟨by rw [hpartly]; exact hhandled, hdigits, code, i, made, hcode, hmade, henough, hfirst,
      ?_, by rw [hpartly]; exact hreads⟩
    rw [hfront]
    dsimp only
    omega
  · have hfront : (front ++ [c]).filter (·.toNat ≤ n) = front.filter (·.toNat ≤ n) := by
      simp [List.filter_append, Nat.not_le.mpr hgt]
    rw [encodeStep, if_neg (Nat.not_lt.mpr (Nat.le_of_lt hgt)), if_neg hc]
    exact ⟨by rw [hpartly]; exact hhandled, hdigits, code, i, made, hcode, hmade, henough, hfirst,
      by rw [hfront]; exact hdelta, by rw [hpartly]; exact hreads⟩

/-- The reader puts in what a number tells. -/
theorem decodeFrom_encodeNumber {code i place : Nat} {put rest : List Char} (fuel : Nat)
    (hq : q + i = (n - code) * (put.length + 1) + place) (hcode : code ≤ n)
    (hplace : place ≤ put.length) (hn : n.isValidChar) (bias : Nat) :
    decodeFrom (fuel + 1) (encodeNumber bias q base q ++ rest) code i bias put =
      decodeFrom fuel rest n (place + 1) (adapt q (put.length + 1) (i = 0))
        (put.take place ++ Char.ofNatAux n hn :: put.drop place) := by
  have hread : decodeNumber bias (encodeNumber bias q base q ++ rest) base 1 i =
      some (q + i, rest) := by
    rw [decodeNumber_encodeNumber (Nat.le_refl q), Nat.mul_one, Nat.add_comm]
  have hnext : code + (q + i) / (put.length + 1) = n := by
    rw [hq, Nat.mul_comm, Nat.mul_add_div (Nat.succ_pos _),
      Nat.div_eq_of_lt (Nat.lt_succ_of_le hplace), Nat.add_zero, Nat.add_sub_cancel' hcode]
  have hmod : (q + i) % (put.length + 1) = place := by
    rw [hq, Nat.mul_comm, Nat.mul_add_mod, Nat.mod_eq_of_lt (Nat.lt_succ_of_le hplace)]
  obtain ⟨d, ds, hds⟩ := List.exists_cons_of_ne_nil (encodeNumber_ne_nil bias q base q)
  rw [hds, List.cons_append] at hread ⊢
  show (decodeNumber bias (d :: (ds ++ rest)) base 1 i >>= _) = _
  rw [hread]
  show (if h : (code + (q + i) / (put.length + 1)).isValidChar then _ else _) = _
  generalize code + (q + i) / (put.length + 1) = next at hnext ⊢
  subst hnext
  rw [dif_pos hn, hmod, Nat.add_sub_cancel]

/-- The writer puts in a character. -/
theorem Follows.put (h : Follows label n front (c :: back) s) (hc : c.toNat = n) :
    Follows label n (front ++ [c]) back (encodeStep (basic label).length n s c.toNat) := by
  obtain ⟨hhandled, hdigits, code, i, made, hcode, hmade, henough, hfirst, hdelta, hreads⟩ := h
  subst hc
  have hfront : (front ++ [c]).filter (·.toNat ≤ c.toNat) =
      front.filter (·.toNat ≤ c.toNat) ++ [c] := by
    simp [List.filter_append]
  have hput := partly_cons_self c front back
  have hpartly := partly_concat_self c front back
  rw [encodeStep, if_neg (Nat.lt_irrefl _), if_pos rfl]
  constructor
  case handled =>
    rw [hpartly, hhandled, hput]
    simp
    omega
  case digits =>
    intro d hd
    rcases List.mem_append.mp hd with hd | hd
    · exact exists_digit_of_mem (Nat.le_refl _) (List.mem_reverse.mp hd)
    · exact hdigits d hd
  case reads =>
    refine ⟨c.toNat, (front.filter (·.toNat ≤ c.toNat)).length + 1, made + 1, Nat.le_refl _, ?_, ?_,
      ?_, ?_, ?_⟩
    · dsimp only
      omega
    · have hne := List.length_pos_iff.mpr (encodeNumber_ne_nil s.bias s.delta base s.delta)
      simp
      omega
    · simp
    · simp [hfront]
    · intro fuel rest
      have hlength : s.handled = (partly c.toNat front (c :: back)).length := hhandled
      have hstart : decide (s.handled = (basic label).length) = decide (i = 0) := by
        apply decide_eq_decide.mpr
        omega
      have hplace : (front.filter (·.toNat ≤ c.toNat)).length ≤
          (partly c.toNat front (c :: back)).length := by
        rw [hput, List.length_append]
        omega
      rw [List.reverse_append, List.reverse_reverse, List.append_assoc,
        show fuel + (made + 1) = fuel + 1 + made by omega, hreads, hstart, hlength,
        decodeFrom_encodeNumber fuel (hlength ▸ hdelta) hcode hplace c.valid, hpartly, hput,
        List.take_left, List.drop_left]
      rfl

/-- The writer goes through the rest of the label. -/
theorem Follows.pass_all (h : Follows label n front back s) :
    Follows label n (front ++ back) [] ((back.map Char.toNat).foldl
      (encodeStep (basic label).length n) s) := by
  induction back generalizing front s with
  | nil => rwa [List.append_nil]
  | cons c back ih =>
    rw [List.map_cons, List.foldl_cons, List.append_cons]
    apply ih
    by_cases hc : c.toNat = n
    · exact h.put hc
    · exact h.pass hc

/-- The writer counts over numbers that no character has. -/
theorem Follows.skip {next : Nat} (h : Follows label n [] label s) (hnext : n ≤ next)
    (hnone : ∀ c ∈ label, c.toNat < next → c.toNat < n) :
    Follows label next [] label { s with delta := s.delta + (next - n) * (s.handled + 1) } := by
  obtain ⟨hhandled, hdigits, code, i, made, hcode, hmade, henough, hfirst, hdelta, hreads⟩ := h
  have hpartly : partly next [] label = partly n [] label := by
    refine List.filter_congr fun c hc => decide_eq_decide.mpr ?_
    exact ⟨hnone c hc, fun hlt => Nat.lt_of_lt_of_le hlt hnext⟩
  refine ⟨by rw [hpartly]; exact hhandled, hdigits, code, i, made, Nat.le_trans hcode hnext, hmade,
    henough, hfirst, ?_, by rw [hpartly]; exact hreads⟩
  have hsplit : next - code = (next - n) + (n - code) := by omega
  rw [List.filter_nil, List.length_nil, Nat.add_zero] at hdelta ⊢
  rw [hsplit, Nat.add_mul, ← hdelta]
  dsimp only
  omega

/-- The writer has gone through the label, and goes on to the next number. -/
theorem Follows.turn (h : Follows label n label [] s) :
    Follows label (n + 1) [] label { s with delta := s.delta + 1 } := by
  obtain ⟨hhandled, hdigits, code, i, made, hcode, hmade, henough, hfirst, hdelta, hreads⟩ := h
  have hpartly : partly (n + 1) [] label = partly n label [] := by
    simp only [partly, List.filter_nil, List.append_nil, List.nil_append, Nat.lt_succ_iff]
  refine ⟨by rw [hpartly]; exact hhandled, hdigits, code, i, made, Nat.le_succ_of_le hcode, hmade,
    henough, hfirst, ?_, by rw [hpartly]; exact hreads⟩
  have hlength : s.handled = (label.filter (·.toNat ≤ n)).length := by simpa [partly] using hhandled
  rw [← hlength] at hdelta
  rw [Nat.succ_sub hcode, Nat.succ_mul]
  dsimp only [List.filter_nil, List.length_nil]
  omega

/-- There are fewer characters behind a number that one of them has. -/
theorem length_filter_lt {next : Nat} (hnext : n ≤ next) (hmem : next ∈ label.map Char.toNat) :
    ((label.map Char.toNat).filter (next + 1 ≤ ·)).length <
      ((label.map Char.toNat).filter (n ≤ ·)).length := by
  have hsub : (label.map Char.toNat).filter (next + 1 ≤ ·) =
      ((label.map Char.toNat).filter (n ≤ ·)).filter (next + 1 ≤ ·) := by
    rw [List.filter_filter]
    refine List.filter_congr fun m _ => ?_
    simp
    omega
  rw [hsub, List.length_filter_lt_length_iff_exists]
  exact ⟨next, List.mem_filter.mpr ⟨hmem, by simpa using hnext⟩, by simp⟩

/-- In the end the writer has passed all characters. -/
theorem Follows.encodeFrom (h : Follows label n [] label s)
    (hfuel : ((label.map Char.toNat).filter (n ≤ ·)).length ≤ fuel) :
    ∃ last, (∀ c ∈ label, c.toNat < last) ∧
      Follows label last [] label
        (encodeFrom (label.map Char.toNat) (basic label).length fuel n s) := by
  have hdone (hnil : (label.map Char.toNat).filter (n ≤ ·) = []) : ∀ c ∈ label, c.toNat < n := by
    intro c hc
    simpa using List.filter_eq_nil_iff.mp hnil _ (List.mem_map_of_mem hc)
  induction fuel generalizing n s with
  | zero => exact ⟨n, hdone (List.length_eq_zero_iff.mp (Nat.le_zero.mp hfuel)), h⟩
  | succ fuel ih =>
    rw [Punycode.encodeFrom]
    split
    · next hnone => exact ⟨n, hdone (List.min?_eq_none_iff.mp hnone), h⟩
    · next next hmin =>
      obtain ⟨hmem, hleast⟩ := List.min?_eq_some_iff.mp hmin
      obtain ⟨hmem, hle⟩ := List.mem_filter.mp hmem
      have hle : n ≤ next := of_decide_eq_true hle
      have hnone : ∀ c ∈ label, c.toNat < next → c.toNat < n := by
        intro c hc hlt
        by_contra hge
        have hleast := hleast c.toNat
          (List.mem_filter.mpr ⟨List.mem_map_of_mem hc, by simpa using hge⟩)
        omega
      have hlength := length_filter_lt hle hmem
      have hpassed := (h.skip hle hnone).pass_all
      rw [List.nil_append] at hpassed
      refine ih hpassed.turn (by omega) fun hnil c hc => ?_
      simpa using List.filter_eq_nil_iff.mp hnil _ (List.mem_map_of_mem hc)

end Pass

/-! ### Labels -/

section Label

variable {cs : List Char}

/-- The writer and the reader start with the ASCII characters of the label. -/
theorem follows_start (cs : List Char) :
    Follows cs initialCode [] cs ⟨0, initialBias, (basic cs).length, []⟩ where
  handled := rfl
  digits := nofun
  reads := ⟨initialCode, 0, 0, Nat.le_refl _, rfl, Nat.le_refl _, by simp, by simp, fun _ _ => rfl⟩

/-- The numbers for a label are read as the label. -/
theorem decodeFrom_numbers (cs : List Char) :
    (∀ c ∈ numbers cs, ∃ n < 36, c = digit n) ∧
      decodeFrom (numbers cs).length (numbers cs) initialCode 0 initialBias (basic cs) = some cs := by
  have hcount : ((cs.map Char.toNat).filter (initialCode ≤ ·)).length ≤ cs.length := by
    simpa using List.length_filter_le (initialCode ≤ ·) (cs.map Char.toNat)
  obtain ⟨last, hlast, hend⟩ := (follows_start cs).encodeFrom hcount
  obtain ⟨-, hdigits, code, i, made, -, -, henough, -, -, hreads⟩ := hend
  refine ⟨fun c hc => hdigits c (List.mem_reverse.mp hc), ?_⟩
  have hall : partly last [] cs = cs := List.filter_eq_self.mpr fun c hc => by simpa using hlast c hc
  have hlength : (numbers cs).length - made + made = (numbers cs).length :=
    Nat.sub_add_cancel (by simpa [numbers] using henough)
  have hread := hreads ((numbers cs).length - made) []
  rw [List.append_nil, hlength, hall] at hread
  refine hread.trans ?_
  cases (numbers cs).length - made <;> rfl

theorem digit_ne_hyphen : ∀ n < 36, digit n ≠ '-' := by decide

/-- No hyphen stands in the numbers for a label. -/
theorem hyphen_notMem_numbers (cs : List Char) : '-' ∉ numbers cs := by
  intro hmem
  obtain ⟨n, hn, hdigit⟩ := (decodeFrom_numbers cs).1 _ hmem
  exact digit_ne_hyphen n hn hdigit.symm

theorem splitBasic_encode (cs : List Char) : splitBasic (encode cs) = (basic cs, numbers cs) := by
  have hall : ∀ c ∈ (numbers cs).reverse, decide (c ≠ '-') = true := by
    rintro c hc
    refine decide_eq_true ?_
    rintro rfl
    exact hyphen_notMem_numbers cs (List.mem_reverse.mp hc)
  by_cases hbasic : basic cs = []
  · have hencode : encode cs = numbers cs := by simp [encode, hbasic]
    have hbehind : (numbers cs).reverse.takeWhile (· ≠ '-') = (numbers cs).reverse := by
      rw [← List.append_nil (numbers cs).reverse, List.takeWhile_append_of_pos hall]
      rfl
    simp only [splitBasic, hencode, hbehind]
    simp [hbasic]
  · have hencode : encode cs = basic cs ++ '-' :: numbers cs := by simp [encode, hbasic]
    have hbehind : (encode cs).reverse.takeWhile (· ≠ '-') = (numbers cs).reverse := by
      rw [hencode, List.reverse_append, List.reverse_cons, List.append_assoc,
        List.takeWhile_append_of_pos hall]
      simp
    have hfront : (encode cs).length - (numbers cs).length - 1 = (basic cs).length := by
      rw [hencode, List.length_append, List.length_cons]
      omega
    simp only [splitBasic, hbehind, List.reverse_reverse, hfront]
    simp [hencode, hbasic]

/-- A label is read as it has been written. -/
theorem decode_encode_label (cs : List Char) : decode (encode cs) = some cs := by
  rw [decode, splitBasic_encode]
  exact (decodeFrom_numbers cs).2

/-- A label is written with its own ASCII characters, digits and hyphens. -/
theorem mem_encode {c : Char} (h : c ∈ encode cs) :
    (c ∈ cs ∧ c.toNat < initialCode) ∨ c = '-' ∨ ∃ n < 36, c = digit n := by
  rcases List.mem_append.mp h with h | h
  · rcases List.mem_append.mp h with h | h
    · left
      simpa [basic] using h
    · right; left
      split at h
      · nomatch h
      · exact List.mem_singleton.mp h
  · exact .inr (.inr ((decodeFrom_numbers cs).1 c h))

end Label

end Punycode
end CodeQuality
