import CodeQuality.Proofs.Text.Octets
import CodeQuality.Proofs.Text.Spans
import CodeQuality.Proofs.Url.Percent
import CodeQuality.Url.Form

/-!
# Forms read back

A form holds exactly the pairs that it has been written for, whatever characters their names and
values have. Neither a name nor a value as it is written holds one of the separators, and so no
value can end a pair or begin another one.

* `decodePart_encodePart` — one name or value.
* `decode_encode_pairs` — a form.
-/

namespace CodeQuality
namespace Form

variable {c : Char}

/-! ### Characters -/

theorem isPlain_of_mem_escapeChars : ∀ c ∈ Percent.escapeChars, c = '%' ∨ isPlain c = true :=
  Text.forall_of_all (by decide)

/-- No part of a form holds a separator. -/
theorem not_separator_of_mem (h : c ∈ encodeChar d) : c ≠ '&' ∧ c ≠ '=' := by
  have hplain {e : Char} (he : isPlain e = true) : e ≠ '&' ∧ e ≠ '=' := by
    constructor <;> (rintro rfl; exact absurd he (by decide))
  unfold encodeChar at h
  split at h
  · rw [List.mem_singleton] at h
    subst h
    decide
  · split at h
    · next hd =>
      rw [List.mem_singleton] at h
      subst h
      exact hplain hd
    · obtain ⟨b, -, hb⟩ := List.mem_flatMap.mp h
      rcases isPlain_of_mem_escapeChars c (Percent.mem_escapeChars_of_mem_escape hb) with rfl | hc
      · decide
      · exact hplain hc

theorem not_separator_of_mem_part {s : String} (h : c ∈ encodePart s) : c ≠ '&' ∧ c ≠ '=' := by
  obtain ⟨d, -, hd⟩ := List.mem_flatMap.mp h
  exact not_separator_of_mem hd

/-- The blank that a plus sign stands for. -/
def unplus (c : Char) : Char := if c = '+' then ' ' else c

theorem unplus_escape (b : UInt8) : (Percent.escape b).map unplus = Percent.escape b := by
  have hplus : ∀ c ∈ Percent.escapeChars, unplus c = c := Text.forall_of_all (by decide)
  refine (List.map_congr_left fun c hc => ?_).trans (List.map_id _)
  exact hplus c (Percent.mem_escapeChars_of_mem_escape hc)

/-- A character is read from the way it is written as its octets. -/
theorem decode_encodeChar (c : Char) (cs : List Char) :
    Percent.decode ((encodeChar c).map unplus ++ cs) =
      String.utf8EncodeChar c ++ Percent.decode cs := by
  unfold encodeChar
  by_cases hblank : c = ' '
  · subst hblank
    exact Percent.decode_cons (by decide) cs
  rw [if_neg hblank]
  by_cases hc : isPlain c = true
  · have hplus : c ≠ '+' := by rintro rfl; exact absurd hc (by decide)
    have hpercent : c ≠ '%' := by rintro rfl; exact absurd hc (by decide)
    rw [if_pos hc, List.map_singleton, unplus, if_neg hplus]
    exact Percent.decode_cons hpercent cs
  · have hescapes : ((String.utf8EncodeChar c).flatMap Percent.escape).map unplus =
        (String.utf8EncodeChar c).flatMap Percent.escape := by
      rw [List.map_flatMap]
      simp only [unplus_escape]
    rw [if_neg hc, hescapes, Percent.decode_escapes]

/-! ### Names and values -/

/-- A name or value is read as it has been written. -/
theorem decodePart_encodePart (s : String) : decodePart (encodePart s) = s := by
  have hdecode (cs : List Char) :
      Percent.decode ((cs.flatMap encodeChar).map unplus) = Text.octets cs := by
    induction cs with
    | nil => rfl
    | cons c cs ih =>
      rw [List.flatMap_cons, List.map_append, decode_encodeChar, ih]
      rfl
  have htext (cs : List Char) : Text.ofOctetsLossy (Text.octets cs) = cs := by
    rw [Text.ofOctetsLossy, Text.read_octets, List.map_map]
    exact List.map_id cs
  show String.ofList (Text.ofOctetsLossy (Percent.decode ((encodePart s).map unplus))) = s
  rw [encodePart, hdecode, htext, String.ofList_toList]

/-! ### Pairs -/

theorem cut_append {separator : Char} {cs rest : List Char} (h : ∀ c ∈ cs, c ≠ separator) :
    cut separator (cs ++ separator :: rest) = (cs, rest) := by
  have hcs : ∀ c ∈ cs, (decide (c ≠ separator)) = true := fun c hc => decide_eq_true (h c hc)
  have hrest : ∀ c ∈ (separator :: rest).head?, (decide (c ≠ separator)) = false := by simp
  unfold cut
  rw [Text.takeWhile_append hcs hrest, Text.dropWhile_append hcs hrest]
  rfl

theorem decodePair_encodePair (p : String × String) : decodePair (encodePair p) = p := by
  unfold decodePair encodePair
  rw [cut_append fun c hc => (not_separator_of_mem_part hc).2]
  simp only [decodePart_encodePart]

theorem encode_eq_join (pairs : List (String × String)) :
    encode pairs = Text.join '&' (pairs.map encodePair) := by
  induction pairs with
  | nil => rfl
  | cons p pairs ih =>
    cases pairs with
    | nil => rfl
    | cons q pairs =>
      show encodePair p ++ '&' :: encode (q :: pairs) = _
      rw [ih]
      rfl

theorem ampersand_not_mem_encodePair (p : String × String) : '&' ∉ encodePair p := by
  intro h
  rcases List.mem_append.mp h with h | h
  · exact (not_separator_of_mem_part h).1 rfl
  · rcases List.mem_cons.mp h with h | h
    · nomatch h
    · exact (not_separator_of_mem_part h).1 rfl

/-- A form holds the pairs that it has been written for, in their order, and no others. -/
theorem decode_encode_pairs (pairs : List (String × String)) : decode (encode pairs) = pairs := by
  rw [encode_eq_join]
  cases hpairs : pairs with
  | nil => rfl
  | cons p later =>
    rw [← hpairs]
    have hsplit : Text.split '&' (Text.join '&' (pairs.map encodePair)) = pairs.map encodePair := by
      apply Text.split_join
      · simp [hpairs]
      · intro part hpart
        obtain ⟨q, -, rfl⟩ := List.mem_map.mp hpart
        exact ampersand_not_mem_encodePair q
    have hfilter : (pairs.map encodePair).filter (!·.isEmpty) = pairs.map encodePair := by
      rw [List.filter_eq_self]
      intro part hpart
      obtain ⟨q, -, rfl⟩ := List.mem_map.mp hpart
      simp [encodePair]
    unfold decode
    rw [hsplit, hfilter, List.map_map]
    exact List.map_id'' (fun q => decodePair_encodePair q) pairs

/-- Two forms with an ampersand between them hold the pairs of both. -/
theorem decode_append (cs rest : List Char) :
    decode (cs ++ '&' :: rest) = decode cs ++ decode rest := by
  unfold decode
  rw [Text.split_append_cons, List.filter_append, List.map_append]

/-- A form that holds anything is not empty. -/
theorem encode_ne_nil {pairs : List (String × String)} (h : pairs ≠ []) : encode pairs ≠ [] := by
  intro he
  apply h
  rw [← decode_encode_pairs pairs, he]
  rfl

end Form
end CodeQuality
