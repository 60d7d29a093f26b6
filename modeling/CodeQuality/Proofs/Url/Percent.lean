import CodeQuality.Url.Percent

/-!
# Percent encoding undone

Escapes are read as the octets that they have been written for. A part of a URL that has been
encoded holds no character any more that needs it, and encoding it again changes nothing.

* `decode_escapes` — escapes.
* `decode_append` — a character behind all escapes.
* `encode_clean`, `encode_eq_self` — what encoding leaves, and where it has nothing to do.
-/

namespace CodeQuality
namespace Percent

variable {p : Char → Bool} {c : Char} {cs : List Char}

/-! ### Escapes -/

/-- The characters that escapes are made of. -/
def escapeChars : List Char :=
  ['%', '0', '1', '2', '3', '4', '5', '6', '7', '8', '9', 'A', 'B', 'C', 'D', 'E', 'F']

theorem hexValue?_hexDigit : ∀ n < 16, hexValue? (hexDigit n) = some n := by decide

theorem hexDigit_mem_escapeChars : ∀ n < 16, hexDigit n ∈ escapeChars := by decide

theorem mem_escapeChars_of_mem_escape {b : UInt8} (h : c ∈ escape b) : c ∈ escapeChars := by
  have hb : b.toNat < 256 := b.toNat_lt
  simp only [escape, List.mem_cons, List.not_mem_nil, or_false] at h
  rcases h with rfl | rfl | rfl
  · decide
  · exact hexDigit_mem_escapeChars _ (by omega)
  · exact hexDigit_mem_escapeChars _ (by omega)

/-- An escape is read as its octet. -/
theorem decode_escape (b : UInt8) (cs : List Char) : decode (escape b ++ cs) = b :: decode cs := by
  have hb : b.toNat < 256 := b.toNat_lt
  have hhigh := hexValue?_hexDigit (b.toNat / 16) (by omega)
  have hlow := hexValue?_hexDigit (b.toNat % 16) (by omega)
  have hvalue : UInt8.ofNat (16 * (b.toNat / 16) + b.toNat % 16) = b := by
    rw [Nat.div_add_mod]
    exact UInt8.ofNat_toNat
  simp only [escape, List.cons_append, List.nil_append, decode, hhigh, hlow, hvalue]

theorem decode_escapes (bytes : List UInt8) (cs : List Char) :
    decode (bytes.flatMap escape ++ cs) = bytes ++ decode cs := by
  induction bytes with
  | nil => rfl
  | cons b bytes ih => rw [List.flatMap_cons, List.append_assoc, decode_escape, ih]; rfl

/-- Any other character is read as its own octets. -/
theorem decode_cons (h : c ≠ '%') (cs : List Char) :
    decode (c :: cs) = String.utf8EncodeChar c ++ decode cs := by
  rw [decode]
  intro _ _ _ hc _
  exact h hc

theorem decode_of_not_mem (h : '%' ∉ cs) : decode cs = Text.octets cs := by
  induction cs with
  | nil => rfl
  | cons c cs ih =>
    rw [List.mem_cons, not_or] at h
    rw [decode_cons (Ne.symm h.1), ih h.2]
    rfl

/-- A percent sign without two digits behind it is read as its own octets. -/
theorem decode_percent
    (h : ∀ x y rest, cs = x :: y :: rest → hexValue? x = none ∨ hexValue? y = none) :
    decode ('%' :: cs) = String.utf8EncodeChar '%' ++ decode cs := by
  match cs with
  | [] => rfl
  | [x] => rfl
  | x :: y :: rest =>
    rw [decode]
    rcases h x y rest rfl with hx | hy
    · rw [hx]
    · rw [hy]
      cases hexValue? x <;> rfl

/-- A character at the end that is no digit does not belong to an escape. -/
theorem decode_append {b : Char} (hb : hexValue? b = none) (hne : b ≠ '%') :
    decode (cs ++ [b]) = decode cs ++ String.utf8EncodeChar b := by
  induction cs using decode.induct with
  | case1 x y cs m n hx hy ih => simp only [List.cons_append, decode, hx, hy, ih]
  | case2 x y cs hnone ih =>
    have hdigits : hexValue? x = none ∨ hexValue? y = none := by
      cases hx : hexValue? x with
      | none => exact .inl rfl
      | some m =>
        cases hy : hexValue? y with
        | none => exact .inr rfl
        | some n => exact (hnone m n hx hy).elim
    rw [decode_percent (by rintro _ _ _ ⟨⟩; exact hdigits), List.append_assoc, ← ih]
    exact decode_percent (by rintro _ _ _ ⟨⟩; exact hdigits)
  | case3 c cs hother ih =>
    by_cases hc : c = '%'
    · subst hc
      -- At most one character stands before the last one.
      have hdigits : ∀ x y rest, cs ++ [b] = x :: y :: rest →
          hexValue? x = none ∨ hexValue? y = none := by
        intro x y rest heq
        match cs with
        | [] => nomatch heq
        | [_] => cases heq; exact .inr hb
        | _ :: _ :: _ => exact (hother _ _ _ rfl rfl).elim
      have hfew : ∀ x y rest, cs = x :: y :: rest → hexValue? x = none ∨ hexValue? y = none :=
        fun _ _ _ heq => (hother _ _ _ rfl heq).elim
      rw [List.cons_append, decode_percent hdigits, decode_percent hfew, List.append_assoc, ih]
    · rw [List.cons_append, decode_cons hc, decode_cons hc, List.append_assoc, ih]
  | case4 => rw [List.nil_append, decode_cons hne, decode, List.append_nil, List.nil_append]

/-! ### Encoding -/

theorem encode_append (p : Char → Bool) (cs rest : List Char) :
    encode p (cs ++ rest) = encode p cs ++ encode p rest := List.flatMap_append

/-- Every character is written somehow. -/
theorem encode_eq_nil_iff : encode p cs = [] ↔ cs = [] := by
  refine ⟨fun h => List.eq_nil_iff_forall_not_mem.mpr fun c hc => ?_, fun h => by rw [h]; rfl⟩
  have hnone := List.flatMap_eq_nil_iff.mp h c hc
  split at hnone
  · obtain ⟨b, octets, hoctets⟩ := List.exists_cons_of_ne_nil (String.utf8EncodeChar_ne_nil (c := c))
    rw [hoctets] at hnone
    nomatch hnone
  · nomatch hnone

theorem mem_encode (h : c ∈ encode p cs) : c ∈ cs ∧ p c = false ∨ c ∈ escapeChars := by
  obtain ⟨d, hd, hc⟩ := List.mem_flatMap.mp h
  by_cases hp : p d = true
  · rw [if_pos hp] at hc
    obtain ⟨b, -, hb⟩ := List.mem_flatMap.mp hc
    exact .inr (mem_escapeChars_of_mem_escape hb)
  · rw [if_neg hp, List.mem_singleton] at hc
    subst hc
    exact .inl ⟨hd, by simpa using hp⟩

/-- What has been encoded needs no encoding, unless escapes themselves would. -/
theorem encode_clean (hp : ∀ c ∈ escapeChars, p c = false) : ∀ c ∈ encode p cs, p c = false := by
  intro c hc
  rcases mem_encode hc with h | h
  · exact h.2
  · exact hp c h

theorem encode_eq_self (h : ∀ c ∈ cs, p c = false) : encode p cs = cs := by
  induction cs with
  | nil => rfl
  | cons c cs ih =>
    have hc : ¬p c = true := by simp [h c List.mem_cons_self]
    have ih := ih fun d hd => h d (List.mem_cons_of_mem _ hd)
    rw [encode] at ih ⊢
    rw [List.flatMap_cons, if_neg hc, ih]
    rfl

end Percent
end CodeQuality
