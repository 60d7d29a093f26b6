import CodeQuality.Proofs.Steps
import CodeQuality.Proofs.Text.Octets
import CodeQuality.Proofs.Text.Spans
import CodeQuality.Proofs.Url.Punycode
import CodeQuality.Url.Domain

/-!
# Domains that are their own ASCII form

The ASCII form of a domain stands for itself: nothing is left in it to be replaced or composed, and
its labels are read from Punycode as those that have been written. So it makes no difference whether
a server is named by a domain or by the ASCII form of the domain.

* `Domain.label?_ascii` — a label is read again from its ASCII form.
* `Domain.toAscii?_toAscii?` — a domain is.
* `Domain.toAscii?_of_numeric` — numerals with points between them are their own ASCII form.
-/

namespace CodeQuality
namespace Domain

variable {cs name : List Char} {label : Label}

/-! ### Texts in which nothing is replaced -/

/-- No capital letter is allowed, so that a character of ASCII that is stands for itself. -/
theorem fold_of_not_isForbidden {c : Char} (hascii : isAscii c = true)
    (hclean : isForbidden c = false) : fold c = [c] := by
  have hlow : c.toNat < 0x80 := by simpa [isAscii] using hascii
  have hlower : c.isUpper = false := by
    simp only [isForbidden, Bool.or_eq_false_iff] at hclean
    grind
  have hsame : c.toLower = c := by
    delta Char.toLower
    delta Char.isUpper at hlower
    exact dif_neg (by simpa using hlower)
  rw [fold, if_pos hlow, hsame]

/-- Nothing is replaced or composed in ASCII that is allowed. -/
theorem folded_of_not_isForbidden (h : ∀ c ∈ cs, isAscii c = true ∧ isForbidden c = false) :
    folded cs = cs := by
  have hfold : cs.flatMap fold = cs := by
    induction cs with
    | nil => rfl
    | cons c cs ih =>
      obtain ⟨hascii, hclean⟩ := h c List.mem_cons_self
      rw [List.flatMap_cons, fold_of_not_isForbidden hascii hclean,
        ih fun d hd => h d (List.mem_cons_of_mem _ hd)]
      rfl
  rw [folded, hfold]
  exact if_pos (List.all_eq_true.mpr fun c hc => (h c hc).1)

/-! ### Labels -/

theorem isAscii_digit : ∀ n < 36, isAscii (Punycode.digit n) = true ∧ Punycode.digit n ≠ '.' := by
  decide

theorem isAscii_of_mem_mark : ∀ c ∈ mark, isAscii c = true ∧ c ≠ '.' := by
  simp [mark, isAscii]

/-- A label in Punycode is of ASCII, and one label. -/
theorem isAscii_of_mem_encode (hpoint : '.' ∉ cs) :
    ∀ c ∈ mark ++ Punycode.encode cs, isAscii c = true ∧ c ≠ '.' := by
  intro c hc
  rcases List.mem_append.mp hc with hc | hc
  · exact isAscii_of_mem_mark c hc
  · rcases Punycode.mem_encode hc with ⟨hmem, hlow⟩ | rfl | ⟨n, hn, rfl⟩
    · exact ⟨decide_eq_true hlow, ne_of_mem_of_not_mem hmem hpoint⟩
    · decide
    · exact isAscii_digit n hn

theorem isAscii_of_label? (hpoint : '.' ∉ cs) (h : label? cs = some label) :
    ∀ c ∈ label.ascii, isAscii c = true ∧ c ≠ '.' := by
  have hself (hall : cs.all isAscii = true) : ∀ c ∈ cs, isAscii c = true ∧ c ≠ '.' := fun c hc =>
    ⟨List.all_eq_true.mp hall c hc, ne_of_mem_of_not_mem hc hpoint⟩
  unfold label? at h
  split at h
  · split at h
    · split at h
      · next hguard =>
        cases h
        rw [Bool.and_eq_true] at hguard
        exact hself hguard.1
      · nomatch h
    · nomatch h
  · split at h
    · next hall =>
      cases h
      exact hself hall
    · split at h
      · cases h
        exact isAscii_of_mem_encode hpoint
      · nomatch h

/-- A label is read from Punycode as it has been written there. -/
theorem label?_encode (hmark : ¬mark.isPrefixOf cs = true) (hascii : ¬cs.all isAscii = true)
    (hvalid : isValidLabel cs = true) (hpoint : '.' ∉ cs) :
    label? (mark ++ Punycode.encode cs) = some ⟨cs, mark ++ Punycode.encode cs⟩ := by
  have hall : (mark ++ Punycode.encode cs).all isAscii = true :=
    List.all_eq_true.mpr fun c hc => (isAscii_of_mem_encode hpoint c hc).1
  have hother : cs.any (!isAscii ·) = true := by
    simpa [List.any_eq_true, List.all_eq_true] using hascii
  have hencodable : isEncodable cs = true := by
    simp [isEncodable, hother, hvalid, hmark, hpoint]
  have hdecode : Punycode.decode ((mark ++ Punycode.encode cs).drop 4) = some cs :=
    Punycode.decode_encode_label cs
  rw [label?, if_pos (List.isPrefixOf_iff_prefix.mpr (List.prefix_append _ _)), hdecode]
  exact if_pos (by rw [hall, hencodable]; rfl)

/-- A label is read again from its ASCII form. -/
theorem label?_ascii (hpoint : '.' ∉ cs) (h : label? cs = some label) :
    label? label.ascii = some label := by
  have hlabel := h
  unfold label? at h
  split at h
  · split at h
    · split at h
      · cases h
        exact hlabel
      · nomatch h
    · nomatch h
  · next hmark =>
    split at h
    · cases h
      exact hlabel
    · next hascii =>
      split at h
      · next hvalid =>
        cases h
        exact label?_encode hmark hascii hvalid hpoint
      · nomatch h

/-! ### Domains -/

/-- A domain holds no forbidden character. -/
theorem not_isForbidden_of_toAscii? (h : toAscii? cs = some name) :
    ∀ c ∈ name, isForbidden c = false := by
  obtain ⟨labels, -, h⟩ := Option.bind_eq_some_iff.mp h
  split at h
  · nomatch h
  · next hguard =>
    cases h
    intro c hc
    rcases Text.mem_join hc with rfl | ⟨part, hpart, hc⟩
    · decide
    · obtain ⟨label, hlabel, rfl⟩ := List.mem_map.mp hpart
      simp only [Bool.or_eq_true, not_or, List.any_eq_true, not_exists, not_and] at hguard
      simpa using hguard.2 label hlabel c hc

/-- The ASCII form of a domain is its own ASCII form. -/
theorem toAscii?_toAscii? (h : toAscii? cs = some name) : toAscii? name = some name := by
  have hclean := not_isForbidden_of_toAscii? h
  obtain ⟨labels, hlabels, h⟩ := Option.bind_eq_some_iff.mp h
  have hlabel : ∀ label ∈ labels, ∃ part, '.' ∉ part ∧ label? part = some label := by
    intro label hmem
    obtain ⟨part, hpart, hlabel⟩ := exists_of_mapM_some hlabels label hmem
    exact ⟨part, fun hpoint => (Text.mem_of_mem_split hpart hpoint).2 rfl, hlabel⟩
  have hascii : ∀ label ∈ labels, ∀ c ∈ label.ascii, isAscii c = true ∧ c ≠ '.' := by
    intro label hmem
    obtain ⟨part, hpoint, hlabel⟩ := hlabel label hmem
    exact isAscii_of_label? hpoint hlabel
  have hne : labels.map Label.ascii ≠ [] := by
    have hlength := length_of_mapM hlabels
    have hparts := List.length_pos_iff.mpr (Text.split_ne_nil '.' (folded cs))
    rw [← List.length_pos_iff, List.length_map]
    omega
  have hread : (labels.map Label.ascii).mapM label? = some labels := by
    rw [mapM_some_iff, List.map_map]
    refine List.map_congr_left fun label hmem => ?_
    obtain ⟨part, hpoint, hlabel⟩ := hlabel label hmem
    exact label?_ascii hpoint hlabel
  have hname : name = Text.join '.' (labels.map Label.ascii) := by
    split at h
    · nomatch h
    · exact (Option.some.inj h).symm
  have hfolded : folded name = name := by
    refine folded_of_not_isForbidden fun c hc => ⟨?_, hclean c hc⟩
    rw [hname] at hc
    rcases Text.mem_join hc with rfl | ⟨part, hpart, hc⟩
    · decide
    · obtain ⟨label, hmem, rfl⟩ := List.mem_map.mp hpart
      exact (hascii label hmem c hc).1
  have hsplit : Text.split '.' name = labels.map Label.ascii := by
    rw [hname]
    refine Text.split_join hne fun part hpart hpoint => ?_
    obtain ⟨label, hmem, rfl⟩ := List.mem_map.mp hpart
    exact (hascii label hmem _ hpoint).2 rfl
  unfold toAscii?
  rw [hfolded, hsplit, hread]
  exact h

/-- The octets of a text name the ASCII form of the text. -/
theorem ofOctets?_octets (cs : List Char) : ofOctets? (Text.octets cs) = toAscii? cs := by
  unfold ofOctets?
  rw [Text.ofOctets?_octets]
  rfl

theorem toAscii?_of_ofOctets? {octets : List UInt8} (h : ofOctets? octets = some name) :
    toAscii? name = some name := by
  obtain ⟨text, -, h⟩ := Option.bind_eq_some_iff.mp h
  exact toAscii?_toAscii? h

/-! ### Numerals and points -/

theorem exists_digit {c : Char} (h : c.isDigit = true) : ∃ n < 10, c = Char.ofNat (48 + n) := by
  simp only [Char.isDigit, Bool.and_eq_true, decide_eq_true_eq, ge_iff_le] at h
  have hlow : 48 ≤ c.toNat := h.1
  have hhigh : c.toNat ≤ 57 := h.2
  refine ⟨c.toNat - 48, by omega, ?_⟩
  rw [show 48 + (c.toNat - 48) = c.toNat by omega, Char.ofNat_toNat]

theorem directionOf_digit : ∀ n < 10, directionOf (Char.ofNat (48 + n)) = .digit := by decide

theorem isForbidden_digit : ∀ n < 10, isForbidden (Char.ofNat (48 + n)) = false := by decide

theorem isAscii_numeral : ∀ n < 10, isAscii (Char.ofNat (48 + n)) = true := by decide

section Digits

variable {part : List Char} (hpart : ∀ c ∈ part, c.isDigit = true)
include hpart

/-- A label of digits is its own ASCII form. -/
theorem label?_of_digits : label? part = some ⟨part, part⟩ := by
  have hmark : mark.isPrefixOf part = false := by
    cases part with
    | nil => rfl
    | cons c part =>
      have hc : ('x' == c) = false := by
        apply beq_false_of_ne
        rintro rfl
        nomatch hpart _ List.mem_cons_self
      simp [mark, List.isPrefixOf, hc]
  have hascii : part.all isAscii = true := List.all_eq_true.mpr fun c hc => by
    obtain ⟨n, hn, rfl⟩ := exists_digit (hpart c hc)
    exact isAscii_numeral n hn
  rw [label?, if_neg (by simp [hmark]), if_pos hascii]

theorem goesLeft_of_digits : goesLeft (directions part) = false := by
  have hdigits : ∀ d ∈ directions part, d = .digit := by
    intro d hd
    obtain ⟨c, hc, rfl⟩ := List.mem_map.mp hd
    obtain ⟨n, hn, rfl⟩ := exists_digit (hpart c (List.mem_filter.mp hc).1)
    exact directionOf_digit n hn
  have hright : Direction.rightToLeft ∉ directions part := fun hmem => nomatch hdigits _ hmem
  have harabic : Direction.arabicDigit ∉ directions part := fun hmem => nomatch hdigits _ hmem
  simp [goesLeft, hright, harabic]

theorem any_isForbidden_of_digits : part.any isForbidden = false := by
  rw [List.any_eq_false]
  intro c hc
  obtain ⟨n, hn, rfl⟩ := exists_digit (hpart c hc)
  simp [isForbidden_digit n hn]

end Digits

/-- What consists of digits and points is its own ASCII form. -/
theorem toAscii?_of_numeric (hcs : ∀ c ∈ cs, c.isDigit = true ∨ c = '.') :
    toAscii? cs = some cs := by
  have hfolded : folded cs = cs := by
    refine folded_of_not_isForbidden fun c hc => ?_
    rcases hcs c hc with hdigit | rfl
    · obtain ⟨n, hn, rfl⟩ := exists_digit hdigit
      exact ⟨isAscii_numeral n hn, isForbidden_digit n hn⟩
    · decide
  have hpart : ∀ part ∈ Text.split '.' cs, ∀ c ∈ part, c.isDigit = true := by
    intro part h c hc
    obtain ⟨hmem, hne⟩ := Text.mem_of_mem_split h hc
    exact (hcs c hmem).resolve_right hne
  have hlabels : (Text.split '.' cs).mapM label? =
      some ((Text.split '.' cs).map fun part => ⟨part, part⟩) :=
    mapM_some_of_forall fun part h => label?_of_digits (hpart part h)
  have hway : areOneWay ((Text.split '.' cs).map fun part => ⟨part, part⟩) = true := by
    simp [areOneWay]
    exact .inl fun part h => goesLeft_of_digits (hpart part h)
  have hforbidden : ((Text.split '.' cs).map fun part => (⟨part, part⟩ : Label)).any
      (·.ascii.any isForbidden) = false := by
    rw [List.any_eq_false]
    intro label hlabel
    obtain ⟨part, h, rfl⟩ := List.mem_map.mp hlabel
    simp [any_isForbidden_of_digits (hpart part h)]
  unfold toAscii?
  rw [hfolded, hlabels]
  show (if _ then none else some _) = some cs
  rw [hway, hforbidden, Bool.not_true, Bool.or_self, if_neg Bool.false_ne_true, List.map_map]
  -- Putting the labels together again gives back what has been split.
  show some (Text.join '.' ((Text.split '.' cs).map id)) = some cs
  rw [List.map_id, Text.join_split]

end Domain
end CodeQuality
