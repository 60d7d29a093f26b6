import CodeQuality.Proofs.Steps
import CodeQuality.Text.Octets

/-!
# UTF-8 undone

The reader of octets finds in the octets of a text that text, with nothing malformed in it. It
suffices to follow the reader through the octets of one character, which leave it where it was
before:

    readFrom .idle (utf8EncodeChar c ++ bytes) = some c :: readFrom .idle bytes

The reader checks the second octet more strictly behind some first octets. That the check passes is
where it counts that a character is written in the shortest form and is no surrogate.

Whatever stands before them, the octets of a character at the end are read as that character, or the
whole is no text: the first of them is never taken for the next octet of another character.
-/

namespace CodeQuality
namespace Text
namespace Octets

theorem toNat_ofNat {n : Nat} (h : n < 256) : (UInt8.ofNat n).toNat = n :=
  UInt8.toNat_ofNat_of_lt' h

/-! ### One octet -/

section
variable {n left value low high : Nat} {bytes : List UInt8}

/-- An octet that is a character by itself. -/
theorem readFrom_single (hn : n < 0x80) :
    readFrom .idle (UInt8.ofNat n :: bytes) = some (Char.ofNat n) :: readFrom .idle bytes := by
  rw [readFrom, toNat_ofNat (by omega), step, first, if_pos hn]
  rfl

/-- The first octet of several. -/
theorem readFrom_first {state : State} (hn : n < 256) (h : first n = ([], state)) :
    readFrom .idle (UInt8.ofNat n :: bytes) = readFrom state bytes := by
  rw [readFrom, toNat_ofNat hn, step, h]
  rfl

/-- An octet inside a character. -/
theorem readFrom_inner (hlow : low ≤ n) (hhigh : n ≤ high) (hn : n < 256) (hleft : 1 < left) :
    readFrom (.within left value low high) (UInt8.ofNat n :: bytes) =
      readFrom (.within (left - 1) (value * 64 + (n - 0x80)) 0x80 0xBF) bytes := by
  have hin : (low ≤ n && n ≤ high) = true := by simp [hlow, hhigh]
  rw [readFrom, toNat_ofNat hn, step, if_pos hin, if_neg (by omega)]
  rfl

/-- The last octet of a character. -/
theorem readFrom_last (hlow : low ≤ n) (hhigh : n ≤ high) (hn : n < 256) :
    readFrom (.within 1 value low high) (UInt8.ofNat n :: bytes) =
      some (Char.ofNat (value * 64 + (n - 0x80))) :: readFrom .idle bytes := by
  have hin : (low ≤ n && n ≤ high) = true := by simp [hlow, hhigh]
  rw [readFrom, toNat_ofNat hn, step, if_pos hin, if_pos (by omega)]
  rfl

end

/-! ### One character -/

theorem first_two {k : Nat} (hlow : 2 ≤ k) (hhigh : k < 0x20) :
    first (k + 0xC0) = ([], .within 1 k 0x80 0xBF) := by
  have hin : (0xC2 ≤ k + 0xC0 && k + 0xC0 ≤ 0xDF) = true := by grind
  rw [first, if_neg (by omega), if_pos hin, Nat.add_sub_cancel]

theorem first_three {k : Nat} (h : k < 0x10) :
    first (k + 0xE0) =
      ([], .within 2 k (if k = 0 then 0xA0 else 0x80) (if k = 0xD then 0x9F else 0xBF)) := by
  have htwo : ¬(0xC2 ≤ k + 0xE0 && k + 0xE0 ≤ 0xDF) = true := by grind
  have hin : (0xE0 ≤ k + 0xE0 && k + 0xE0 ≤ 0xEF) = true := by grind
  rw [first, if_neg (by omega), if_neg htwo, if_pos hin]
  simp

theorem first_four {k : Nat} (h : k ≤ 4) :
    first (k + 0xF0) =
      ([], .within 3 k (if k = 0 then 0x90 else 0x80) (if k = 4 then 0x8F else 0xBF)) := by
  have htwo : ¬(0xC2 ≤ k + 0xF0 && k + 0xF0 ≤ 0xDF) = true := by grind
  have hthree : ¬(0xE0 ≤ k + 0xF0 && k + 0xF0 ≤ 0xEF) = true := by grind
  have hin : (0xF0 ≤ k + 0xF0 && k + 0xF0 ≤ 0xF4) = true := by grind
  rw [first, if_neg (by omega), if_neg htwo, if_neg hthree, if_pos hin]
  simp

/-- The octets of a character are read as that character. -/
theorem readFrom_encodeChar (c : Char) (bytes : List UInt8) :
    readFrom .idle (String.utf8EncodeChar c ++ bytes) = some c :: readFrom .idle bytes := by
  have hvalid : c.val.toNat < 0xD800 ∨ 0xDFFF < c.val.toNat ∧ c.val.toNat < 0x110000 := c.valid
  have hc : Char.ofNat c.val.toNat = c := Char.ofNat_toNat c
  rw [String.utf8EncodeChar]
  generalize hv : c.val.toNat = v at hvalid hc ⊢
  -- One case for each number of octets; the bounds of the second one leave out what is no
  -- character.
  by_cases h₁ : v ≤ 0x7F
  · rw [if_pos h₁, List.cons_append, readFrom_single (by omega), hc]
    rfl
  by_cases h₂ : v ≤ 0x7FF
  · have hfirst := first_two (k := v / 64) (by omega) (by omega)
    have hvalue : v / 64 * 64 + (v % 0x40 + 0x80 - 0x80) = v := by omega
    rw [if_neg h₁, if_pos h₂, Nat.mod_eq_of_lt (show v / 64 < 0x20 by omega), List.cons_append,
      readFrom_first (by omega) hfirst, List.cons_append,
      readFrom_last (by omega) (by omega) (by omega), hvalue, hc]
    rfl
  by_cases h₃ : v ≤ 0xFFFF
  · have hfirst := first_three (k := v / 4096) (by omega)
    have hvalue : (v / 4096 * 64 + (v / 64 % 0x40 + 0x80 - 0x80)) * 64 +
        (v % 0x40 + 0x80 - 0x80) = v := by omega
    rw [if_neg h₁, if_neg h₂, if_pos h₃, Nat.mod_eq_of_lt (show v / 4096 < 0x10 by omega),
      List.cons_append, readFrom_first (by omega) hfirst, List.cons_append,
      readFrom_inner (by split <;> omega) (by split <;> omega) (by omega) (by omega),
      List.cons_append, readFrom_last (by omega) (by omega) (by omega), hvalue, hc]
    rfl
  · have hfirst := first_four (k := v / 262144) (by omega)
    have hvalue : ((v / 262144 * 64 + (v / 4096 % 0x40 + 0x80 - 0x80)) * 64 +
        (v / 64 % 0x40 + 0x80 - 0x80)) * 64 + (v % 0x40 + 0x80 - 0x80) = v := by omega
    rw [if_neg h₁, if_neg h₂, if_neg h₃, Nat.mod_eq_of_lt (show v / 262144 < 0x08 by omega),
      List.cons_append, readFrom_first (by omega) hfirst, List.cons_append,
      readFrom_inner (by split <;> omega) (by split <;> omega) (by omega) (by omega),
      List.cons_append, readFrom_inner (by omega) (by omega) (by omega) (by omega),
      List.cons_append, readFrom_last (by omega) (by omega) (by omega), hvalue, hc]
    rfl

/-! ### A character at the end -/

/-- Is the reader between two characters, or does it wait for an octet that begins none? -/
def Sound : State → Prop
  | .idle => True
  | .within _ _ low high => 0x80 ≤ low ∧ high ≤ 0xBF

theorem sound_first (n : Nat) : Sound (first n).2 := by
  unfold first
  split
  · trivial
  split
  · exact ⟨by omega, by omega⟩
  split
  · exact ⟨by split <;> omega, by split <;> omega⟩
  split
  · exact ⟨by split <;> omega, by split <;> omega⟩
  · trivial

theorem sound_step (n : Nat) (state : State) : Sound (step n state).2 := by
  cases state with
  | idle => exact sound_first n
  | within left value low high =>
    rw [step]
    split
    · dsimp only
      split
      · trivial
      · exact ⟨by omega, by omega⟩
    · exact sound_first n

theorem readFrom_cons (state : State) (octet : UInt8) (octets : List UInt8) :
    readFrom state (octet :: octets) =
      (step octet.toNat state).1 ++ readFrom (step octet.toNat state).2 octets := by
  cases state <;> rfl

/-- The first octet of a character is not taken for the next one of another. -/
theorem exists_encodeChar (c : Char) : ∃ n later, n < 256 ∧ (n < 0x80 ∨ 0xBF < n) ∧
    String.utf8EncodeChar c = UInt8.ofNat n :: later := by
  unfold String.utf8EncodeChar
  dsimp only
  split
  · exact ⟨_, _, by omega, .inl (by omega), rfl⟩
  split
  · exact ⟨c.val.toNat / 64 % 0x20 + 0xC0, _, by omega, .inr (by omega), rfl⟩
  split
  · exact ⟨c.val.toNat / 4096 % 0x10 + 0xE0, _, by omega, .inr (by omega), rfl⟩
  · exact ⟨c.val.toNat / 262144 % 0x08 + 0xF0, _, by omega, .inr (by omega), rfl⟩

/-- A character at the end of octets is read, if nothing malformed is. -/
theorem mem_readFrom_append {state : State} (hstate : Sound state) (octets : List UInt8)
    (b : Char) :
    none ∈ readFrom state (octets ++ String.utf8EncodeChar b) ∨
      some b ∈ readFrom state (octets ++ String.utf8EncodeChar b) := by
  induction octets generalizing state with
  | nil =>
    cases state with
    | idle =>
      have hread := readFrom_encodeChar b []
      rw [List.append_nil] at hread
      rw [List.nil_append, hread]
      exact .inr List.mem_cons_self
    | within left value low high =>
      obtain ⟨n, later, hn, hfirst, heq⟩ := exists_encodeChar b
      have hout : (low ≤ n && n ≤ high) = false := by
        have hlow := hstate.1
        have hhigh := hstate.2
        simp
        omega
      rw [List.nil_append, heq, readFrom_cons, toNat_ofNat hn, step, hout]
      exact .inl (List.mem_append_left _ List.mem_cons_self)
  | cons octet octets ih =>
    rw [List.cons_append, readFrom_cons]
    have ih := ih (sound_step octet.toNat state)
    exact ih.imp (List.mem_append_right _) (List.mem_append_right _)

end Octets

/-! ### A text -/

theorem read_octets (cs : List Char) : Octets.read (octets cs) = cs.map some := by
  induction cs with
  | nil => rfl
  | cons c cs ih =>
    rw [Octets.read] at ih ⊢
    rw [octets, List.flatMap_cons, Octets.readFrom_encodeChar, List.map_cons]
    rw [octets] at ih
    rw [ih]

/-- The octets of a text spell that text. -/
theorem ofOctets?_octets (cs : List Char) : ofOctets? (octets cs) = some cs := by
  rw [ofOctets?, read_octets]
  exact mapM_some_iff.mpr (List.map_id _)

/-- A text whose octets end with those of a character holds this character. -/
theorem mem_of_ofOctets? {octets : List UInt8} {b : Char} {cs : List Char}
    (h : ofOctets? (octets ++ String.utf8EncodeChar b) = some cs) : b ∈ cs := by
  have hread := mapM_some_iff.mp h
  rw [List.map_id] at hread
  rcases Octets.mem_readFrom_append (show Octets.Sound .idle from trivial) octets b with hnone | hb
  · rw [← Octets.read, hread] at hnone
    obtain ⟨c, hc, heq⟩ := List.mem_map.mp hnone
    nomatch heq
  · rw [← Octets.read, hread] at hb
    obtain ⟨c, hc, heq⟩ := List.mem_map.mp hb
    exact Option.some.inj heq ▸ hc

end Text
end CodeQuality
