import CodeQuality.Json.Printer
import CodeQuality.Proofs.Json.Reading

/-!
# Quoted texts read back

Each character of a text is one piece between the quotes, whether it is written as it is, behind a
backslash or by its number, and the reader takes the same pieces.

* `reads_piece` — one character.
* `reads_body` — a whole text, behind its opening quote.
-/

namespace CodeQuality
namespace Json
namespace Quoted

open Reader

/-! ### Characters by their number -/

theorem hexValue?_hexDigit : ∀ n < 16, hexValue? (hexDigit n) = some n := by decide

theorem utf8Size_hexDigit : ∀ n < 16, (hexDigit n).utf8Size = 1 := by decide

/-- Four characters are taken if they are hexadecimal digits. -/
theorem reads_digits {ds : List Char} {x y z w : Nat} (hlength : ds.length = 4)
    (hcount : ¬ octetCount ds < 4) (hvalues : ds.mapM hexValue? = some [x, y, z, w])
    (rest : List Char) : fourDigits.Reads ds rest (((x * 16 + y) * 16 + z) * 16 + w) := by
  refine Reads.get_bind fun p => ?_
  have htake : (ds ++ rest).take 4 = ds := List.take_left' hlength
  simp only [htake, hvalues]
  rw [if_neg hcount, ← hlength]
  exact Reads.cast (Reads.bind (t := []) (reads_skipMany ds rest) (Reads.pure _ rest))
    (List.append_nil ds)

theorem reads_fourDigits {h l : Nat} (hh : h < 16) (hl : l < 16) (rest : List Char) :
    fourDigits.Reads ['0', '0', hexDigit h, hexDigit l] rest (h * 16 + l) := by
  have hcount : octetCount ['0', '0', hexDigit h, hexDigit l] = 4 := by
    simp only [octetCount, List.map_cons, List.map_nil, List.foldl_cons, List.foldl_nil,
      utf8Size_hexDigit h hh, utf8Size_hexDigit l hl]
    rfl
  have hvalues : ['0', '0', hexDigit h, hexDigit l].mapM hexValue? = some [0, 0, h, l] := by
    simp only [List.mapM_cons, List.mapM_nil, hexValue?_hexDigit h hh, hexValue?_hexDigit l hl]
    rfl
  have hread := reads_digits rfl (by rw [hcount]; decide) hvalues rest
  have hvalue : ((0 * 16 + 0) * 16 + h) * 16 + l = h * 16 + l := by omega
  rwa [hvalue] at hread

/-- A control is read from its number. -/
theorem reads_numbered {c : Char} (hc : c.toNat < 0x20) (rest : List Char) :
    numbered.Reads ['0', '0', hexDigit (c.toNat / 16), hexDigit (c.toNat % 16)] rest c := by
  have hdigits :=
    reads_fourDigits (h := c.toNat / 16) (l := c.toNat % 16) (by omega) (by omega) rest
  have hn : c.toNat / 16 * 16 + c.toNat % 16 = c.toNat := by omega
  have hlow : isLowSurrogate c.toNat = false := by
    rw [isLowSurrogate, decide_eq_false (by omega)]; rfl
  have hhigh : isHighSurrogate c.toNat = false := by
    rw [isHighSurrogate, decide_eq_false (by omega)]; rfl
  rw [hn] at hdigits
  rw [numbered]
  refine Reads.cast (Reads.bind (t := []) hdigits ?_) (List.append_nil _)
  rw [hlow, hhigh]
  show (Pure.pure (Char.ofNat c.toNat) : Reader Char).Reads [] rest c
  rw [Char.ofNat_toNat]
  exact Reads.pure c rest

/-! ### Pieces -/

/-- A letter behind a backslash stands for its character. -/
theorem reads_piece_escape {letter c : Char} (hu : letter ≠ 'u')
    (h : unescape? letter = some c) (rest : List Char) :
    piece.Reads ['\\', letter] rest (some c) := by
  rw [piece]
  refine Reads.bind (s := []) (reads_peek ('\\' :: letter :: rest)) ?_
  refine Reads.bind (s := ['\\']) (reads_skip '\\' (letter :: rest)) ?_
  refine Reads.bind (s := []) (reads_peek (letter :: rest)) ?_
  simp only [List.head?_cons, h]
  exact Reads.bind (s := [letter]) (reads_skip letter rest) (Reads.pure (some c) rest)

/-- A control that has no letter of its own is written by its number. -/
theorem reads_piece_number {c : Char} (hc : c.toNat < 0x20) (rest : List Char) :
    piece.Reads ['\\', 'u', '0', '0', hexDigit (c.toNat / 16), hexDigit (c.toNat % 16)] rest
      (some c) := by
  have hnumbered := reads_numbered hc rest
  rw [piece]
  refine Reads.bind (s := []) (reads_peek ('\\' :: 'u' :: _)) ?_
  refine Reads.bind (s := ['\\']) (reads_skip '\\' ('u' :: _)) ?_
  refine Reads.bind (s := []) (reads_peek ('u' :: _)) ?_
  exact Reads.bind (s := ['u']) (reads_skip 'u' _) (Reads.map some hnumbered)

/-- Any other character stands for itself. -/
theorem reads_piece_plain {c : Char} (hq : c ≠ '"') (hb : c ≠ '\\') (hc : 0x20 ≤ c.toNat)
    (rest : List Char) : piece.Reads [c] rest (some c) := by
  rw [piece]
  refine Reads.bind (s := []) (reads_peek (c :: rest)) ?_
  simp only [List.head?_cons, if_neg (Nat.not_lt.mpr hc)]
  exact Reads.bind (s := [c]) (reads_skip c rest) (Reads.pure (some c) rest)

theorem reads_piece_end (rest : List Char) : piece.Reads ['"'] rest none := by
  rw [piece]
  refine Reads.bind (s := []) (reads_peek ('"' :: rest)) ?_
  exact Reads.bind (s := ['"']) (reads_skip '"' rest) (Reads.pure none rest)

/-- A character is one piece, however it is written. -/
theorem reads_piece (c : Char) (rest : List Char) :
    piece.Reads (encodeChar c) rest (some c) := by
  unfold encodeChar
  split
  · next h => subst h; exact reads_piece_escape (by decide) rfl rest
  split
  · next h => subst h; exact reads_piece_escape (by decide) rfl rest
  split
  · next h => subst h; exact reads_piece_escape (by decide) rfl rest
  split
  · next h => subst h; exact reads_piece_escape (by decide) rfl rest
  split
  · next h => subst h; exact reads_piece_escape (by decide) rfl rest
  split
  · next h => subst h; exact reads_piece_escape (by decide) rfl rest
  split
  · next h => subst h; exact reads_piece_escape (by decide) rfl rest
  split
  · next h => exact reads_piece_number h rest
  · next hq hb _ _ _ _ _ h => exact reads_piece_plain hq hb (Nat.le_of_not_lt h) rest

/-! ### Whole texts -/

/-- The pieces of a text up to the quote that closes it. -/
theorem reads_pieces (cs rest : List Char) {fuel : Nat} (hf : cs.length < fuel) (read : List Char) :
    (pieces fuel read).Reads (cs.flatMap encodeChar ++ ['"']) rest (read.reverse ++ cs) := by
  induction cs generalizing fuel read with
  | nil =>
    obtain ⟨fuel, rfl⟩ : ∃ n, fuel = n + 1 := ⟨fuel - 1, by simp at hf; omega⟩
    rw [pieces, List.append_nil]
    exact Reads.bind (s := ['"']) (reads_piece_end rest) (Reads.pure _ _)
  | cons c cs ih =>
    obtain ⟨fuel, rfl⟩ : ∃ n, fuel = n + 1 := ⟨fuel - 1, by simp at hf; omega⟩
    have ih := ih (Nat.lt_of_succ_lt_succ hf) (c :: read)
    rw [List.reverse_cons, List.append_assoc] at ih
    rw [pieces, List.flatMap_cons, List.append_assoc]
    exact Reads.bind (reads_piece c _) ih

theorem encodeChar_ne_nil (c : Char) : encodeChar c ≠ [] := by
  unfold encodeChar
  repeat' split
  all_goals exact List.cons_ne_nil _ _

/-- No piece is shorter than its character. -/
theorem length_le_flatMap_encodeChar (cs : List Char) :
    cs.length ≤ (cs.flatMap encodeChar).length := by
  induction cs with
  | nil => exact Nat.le_refl 0
  | cons c cs ih =>
    have := List.length_pos_iff.mpr (encodeChar_ne_nil c)
    rw [List.flatMap_cons, List.length_append, List.length_cons]
    omega

/-- A text is read back behind its opening quote. -/
theorem reads_body (cs rest : List Char) :
    body.Reads (cs.flatMap encodeChar ++ ['"']) rest (String.ofList cs) := by
  refine Reads.get_bind fun p => ?_
  have hlen := length_le_flatMap_encodeChar cs
  have hfuel : cs.length < (cs.flatMap encodeChar ++ ['"'] ++ rest).length := by
    simp only [List.length_append, List.length_singleton]
    omega
  exact Reads.map String.ofList (reads_pieces cs rest hfuel [])

end Quoted
end Json
end CodeQuality
