import CodeQuality.Proofs.Json.Dates
import CodeQuality.Proofs.Time.Reread

/-!
# Written values read again

What a faithful schema writes of a value with dates that exist is read again exactly if the years of
all these dates have four digits, and then as the value with its dates cut to milliseconds. That it
is read then has been shown; here it is shown that it is not read otherwise. A record is found in
the document that was written for it, and so is each of its dates.

* `Schema.fourDigits_of_ofValue` — what is read again had dates of four-digit years.
* `Schema.read_write_iff` — both directions.
-/

namespace CodeQuality
namespace Json

open Timestamp (FourDigits)

/-- A date is read again only if its year has four digits. -/
theorem fourDigits_of_dateOf {t : Instant} (hv : t.valid = true) {d : Option Instant}
    (h : dateOf (Timestamp.text t) = .ok d) : FourDigits t := by
  by_cases hyear : FourDigits t
  · exact hyear
  · rw [dateOf, Timestamp.read?_text_eq hv, if_neg hyear] at h
    cases h

/-- A list is read again only if each of its items is. -/
theorem Schema.of_ofValue_canonical_list {item : Schema} {as bs : List item.Val}
    (h : (Schema.list item).ofValue ((Schema.list item).toValue as).canonical = .ok bs) :
    ∀ a ∈ as, ∃ b, item.ofValue (item.toValue a).canonical = .ok b := by
  have hitems : (Value.canonicalItems (List.map item.toValue as)).mapM item.ofValue = .ok bs := h
  rw [Schema.canonicalItems_map, mapM_ok_iff, List.map_map] at hitems
  exact exists_map_ok_iff.mp ⟨bs, hitems⟩

/-- The field in front is left out and zero, or reads its own member again; the fields behind it
hold what was written for them. -/
theorem Fields.of_holds_canonical_cons {label : Label} {schema : Schema} {rest : Fields}
    (hs : (Fields.cons label schema rest).faithful = true) {a b : schema.Val}
    {row row' : rest.Row}
    (h : (Fields.cons label schema rest).Holds
      (((Fields.cons label schema rest).toMembers (a, row)).map fun m => (m.1, m.2.canonical))
      (b, row')) :
    (a = schema.zero ∨ schema.ofValue (schema.toValue a).canonical = .ok b) ∧
      rest.Holds ((rest.toMembers row).map fun m => (m.1, m.2.canonical)) row' := by
  have hforeign := not_covers_of_mem_map hs row Value.canonical
  have hown := Label.own_eq_nil hforeign
  have hothers := Label.others_eq_self hforeign
  obtain ⟨htakes, hrest⟩ := h
  rcases toMembers_cons_faithful hs a row with ⟨⟨-, hzero⟩, heq⟩ | heq
  · rw [heq, hothers] at hrest
    exact ⟨.inl hzero, hrest⟩
  · rw [heq, List.map_cons] at htakes hrest
    rw [Label.own_cons, if_pos label.covers_name, hown] at htakes
    rw [Label.others_cons, if_pos label.covers_name, hothers] at hrest
    exact ⟨.inr htakes, hrest⟩

mutual

/-- What is read again had dates whose years have four digits. -/
theorem Schema.fourDigits_of_ofValue : ∀ (s : Schema), s.faithful = true → ∀ a b : s.Val,
    s.Dated a → s.ofValue (s.toValue a).canonical = .ok b → ∀ t ∈ s.dates a, FourDigits t
  | .text, _, _, _ | .flag, _, _, _ | .count, _, _, _ | .signed, _, _, _ | .tag _ _, _, _, _
  | .date, _, none, _ | .optional _, _, none, _ => fun _ _ => List.forall_mem_nil _
  | .date, _, some t, _ => fun hdated h =>
    List.forall_mem_singleton.mpr (fourDigits_of_dateOf (hdated t List.mem_cons_self) h)
  | .optional inner, hs, some a, _ => by
    intro hdated h
    obtain ⟨hnull, hinner⟩ := Schema.faithful_optional_iff.mp hs
    have hne := Value.canonical_ne_null (Schema.toValue_ne_null hnull a)
    rw [Schema.toValue, Schema.ofValue_optional hne] at h
    obtain ⟨b, hb, -⟩ := map_ok_iff.mp h
    exact Schema.fourDigits_of_ofValue inner hinner a b hdated hb
  | .list item, hs, as, bs => by
    intro hdated h t ht
    obtain ⟨a, ha, ht⟩ := List.mem_flatMap.mp ht
    obtain ⟨b, hb⟩ := Schema.of_ofValue_canonical_list h a ha
    have hitem : item.Dated a := fun t ht => hdated t (List.mem_flatMap.mpr ⟨a, ha, ht⟩)
    exact Schema.fourDigits_of_ofValue item hs a b hitem hb t ht
  | .record _ fields, hs, row, row' => by
    intro hdated h
    have hholds := (Schema.ofValue_canonical_record_iff hs).mp h
    exact Fields.fourDigits_of_holds fields hs row row' hdated hholds
  | .fork _ _ present _ _, hs, .inl a, _ => by
    intro hdated h
    obtain ⟨hmember, -, -, hpresent, -⟩ := Schema.faithful_fork_iff.mp hs
    have hvalue := Schema.get?_canonical_present hmember hpresent a
    rw [Schema.toValue, Schema.ofValue_fork, if_pos hvalue] at h
    obtain ⟨b, hb, -⟩ := map_ok_iff.mp (mapError_ok_iff.mp h)
    exact Schema.fourDigits_of_ofValue present hpresent a b hdated hb
  | .fork _ _ _ _ absent, hs, .inr a, _ => by
    intro hdated h
    obtain ⟨-, hrecord, hmember, -, habsent⟩ := Schema.faithful_fork_iff.mp hs
    have hvalue := Schema.get?_canonical_absent hrecord hmember habsent a
    rw [Schema.toValue, Schema.ofValue_fork, if_neg (by rw [hvalue]; decide)] at h
    obtain ⟨b, hb, -⟩ := map_ok_iff.mp (mapError_ok_iff.mp h)
    exact Schema.fourDigits_of_ofValue absent habsent a b hdated hb

theorem Fields.fourDigits_of_holds : ∀ (fs : Fields), fs.faithful = true → ∀ row row' : fs.Row,
    fs.Dated row → fs.Holds ((fs.toMembers row).map fun m => (m.1, m.2.canonical)) row' →
      ∀ t ∈ fs.dates row, FourDigits t
  | .nil, _, _, _ => fun _ _ => List.forall_mem_nil _
  | .cons label schema rest, hs, (a, row), (b, row') => by
    intro hdated h
    obtain ⟨-, -, hschema, hrest⟩ := Fields.faithful_cons_iff.mp hs
    obtain ⟨hfield, hbehind⟩ := Fields.of_holds_canonical_cons hs h
    have hfront : schema.Dated a := fun t ht => hdated t (List.mem_append_left _ ht)
    have hback : rest.Dated row := fun t ht => hdated t (List.mem_append_right _ ht)
    have ha : ∀ t ∈ schema.dates a, FourDigits t := by
      rcases hfield with rfl | hb
      · rw [Schema.dates_zero]
        exact List.forall_mem_nil _
      · exact Schema.fourDigits_of_ofValue schema hschema a b hfront hb
    have hrow := Fields.fourDigits_of_holds rest hrest row row' hback hbehind
    intro t ht
    rcases List.mem_append.mp ht with ht | ht
    · exact ha t ht
    · exact hrow t ht

end

/-- What was written is read again exactly if the years of its dates have four digits, and then
with its dates cut to milliseconds. -/
theorem Schema.read_write_iff {s : Schema} (hs : s.faithful = true) (hn : s.nesting ≤ maxLevels)
    {a b : s.Val} (hdated : s.Dated a) :
    s.read (s.write a) = .ok b ↔ (∀ t ∈ s.dates a, FourDigits t) ∧ b = s.cut a := by
  have hcut (hyears : ∀ t ∈ s.dates a, FourDigits t) : s.read (s.write a) = .ok (s.cut a) := by
    have hread := Schema.read_write hs hn (Schema.exact_cut hdated hyears)
    rwa [write, toValue_cut, ← write] at hread
  constructor
  · intro h
    have hvalue := (s.read_ok_iff (Schema.written_write hs hn a)
      (Schema.distinct_toValue hs a)).mp h
    have hyears := s.fourDigits_of_ofValue hs a b hdated hvalue
    exact ⟨hyears, Except.ok.inj (h.symm.trans (hcut hyears))⟩
  · rintro ⟨hyears, rfl⟩
    exact hcut hyears

end Json
end CodeQuality
