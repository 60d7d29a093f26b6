import CodeQuality.Proofs.Text.Octets

/-!
# The order of octets

Texts are ordered by their characters. Their octets are in the same order: a character that comes
before another one has fewer octets and a smaller first one, or as many octets, of which the first
that differs is smaller.

* `encodeChar_lt` — one character.
* `octets_lt_octets` — whole texts.
-/

namespace CodeQuality
namespace Text

/-- Octets are compared as the numbers they are. -/
theorem octet_lt_iff {m n : Nat} {xs ys : List UInt8} (hm : m < 256) (hn : n < 256) :
    UInt8.ofNat m :: xs < UInt8.ofNat n :: ys ↔ m < n ∨ m = n ∧ xs < ys := by
  rw [List.cons_lt_cons_iff, UInt8.lt_iff_toNat_lt, ← UInt8.toNat_inj, Octets.toNat_ofNat hm,
    Octets.toNat_ofNat hn]

/-- Six bits at a time, what is larger is larger in the first group that differs. -/
theorem groups_lt {v w : Nat} (hw : w < 0x200000) (h : v < w) :
    v / 262144 % 8 < w / 262144 % 8 ∨ v / 262144 % 8 = w / 262144 % 8 ∧
      (v / 4096 % 64 < w / 4096 % 64 ∨ v / 4096 % 64 = w / 4096 % 64 ∧
        (v / 64 % 64 < w / 64 % 64 ∨ v / 64 % 64 = w / 64 % 64 ∧ v % 64 < w % 64)) := by
  have hgroups : ∀ n < 0x200000,
      n = (((n / 262144 % 8) * 64 + n / 4096 % 64) * 64 + n / 64 % 64) * 64 + n % 64 := by
    intro n hn
    omega
  have hv := hgroups v (Nat.lt_trans h hw)
  have hw := hgroups w hw
  omega

/-- Whatever follows them, the octets of a character come before those of a later one. -/
theorem encodeChar_lt {c d : Char} (h : c < d) (xs ys : List UInt8) :
    String.utf8EncodeChar c ++ xs < String.utf8EncodeChar d ++ ys := by
  have hlt : c.val.toNat < d.val.toNat := h
  have hd : d.val.toNat < 0xD800 ∨ 0xDFFF < d.val.toNat ∧ d.val.toNat < 0x110000 := d.valid
  rw [String.utf8EncodeChar, String.utf8EncodeChar]
  generalize c.val.toNat = v at hlt ⊢
  generalize d.val.toNat = w at hlt hd ⊢
  have hgroups := groups_lt (by omega) hlt
  -- One case for each two numbers of octets.
  repeat' split
  all_goals simp (disch := omega) only [List.cons_append, List.nil_append, octet_lt_iff]
  all_goals omega

/-- The octets of texts are in the order of the texts. -/
theorem octets_lt_octets {cs ds : List Char} (h : cs < ds) : octets cs < octets ds := by
  induction cs generalizing ds with
  | nil =>
    cases ds with
    | nil => exact absurd h (List.lt_irrefl [])
    | cons d ds =>
      have hne : octets (d :: ds) ≠ [] := by
        simp [octets]
      obtain ⟨b, bs, hoctets⟩ := List.exists_cons_of_ne_nil hne
      rw [hoctets]
      exact List.nil_lt_cons b bs
  | cons c cs ih =>
    cases ds with
    | nil => exact absurd h (List.not_lt_nil _)
    | cons d ds =>
      show String.utf8EncodeChar c ++ octets cs < String.utf8EncodeChar d ++ octets ds
      rcases List.cons_lt_cons_iff.mp h with hlt | ⟨rfl, htail⟩
      · exact encodeChar_lt hlt _ _
      · exact List.append_left_lt (ih htail)

end Text
end CodeQuality
