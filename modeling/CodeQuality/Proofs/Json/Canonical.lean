import CodeQuality.Proofs.Json.Faithful
import CodeQuality.Proofs.Json.Record
import CodeQuality.Proofs.Time.Timestamp

/-!
# Values of a schema found in what a document denotes

The value of a document that a faithful schema has written is the written one with the members of
its objects sorted, and what the schema makes of it is what was written. This is shown by recursion
on the schema. A fork writes only what is inside it, and finds out from the members which of its
two schemas that was.

* `Schema.ofValue_canonical_record_iff` — records, whose members are found by their names.
* `Schema.ofValue_fork_present`, `Schema.ofValue_fork_absent` — the two schemas of a fork.
* `Schema.ofValue_canonical` — any schema.
-/

namespace CodeQuality
namespace Json

theorem tagOf_get {known : List String} (h : known.Nodup) (i : Fin known.length) :
    tagOf known (known.get i) = some i := by
  refine List.finIdxOf?_eq_some_iff.mpr ⟨rfl, fun j hj heq => ?_⟩
  have hne := List.pairwise_iff_getElem.mp h j i j.isLt i.isLt hj
  exact hne heq

theorem tagOf_eq_none {known : List String} {name : String} (h : name ∉ known) :
    tagOf known name = none := List.finIdxOf?_eq_none_iff.mpr h

/-- What is read item by item from what was written item by item. -/
theorem mapM_map_ok {ε β γ : Type} {f : β → γ} {g : γ → Except ε β} {bs : List β}
    (h : ∀ b ∈ bs, g (f b) = .ok b) : (bs.map f).mapM g = .ok bs := by
  rw [mapM_ok_iff, List.map_map]
  exact List.map_congr_left h

theorem Schema.ofValue_optional {inner : Schema} {v : Value} (h : v ≠ .null) :
    (Schema.optional inner).ofValue v = (inner.ofValue v).map some := by
  cases v with
  | null => exact absurd rfl h
  | _ => rfl

theorem countOf_toNat (n : UInt32) : countOf (.integer n.toNat) = .ok n := by
  have hn := UInt32.toNat_lt n
  have hfits : (decide (0 ≤ (n.toNat : Int)) && decide ((n.toNat : Int) < 0x100000000)) = true := by
    simp only [Bool.and_eq_true, decide_eq_true_eq]
    omega
  rw [countOf, if_pos hfits]
  exact congrArg Except.ok UInt32.ofNat_toNat

theorem signedOf_toInt (n : Int32) : signedOf (.integer n.toInt) = .ok n := by
  have h₀ := Int32.le_toInt n
  have h₁ := Int32.toInt_lt n
  have hfits : (decide (-0x80000000 ≤ n.toInt) && decide (n.toInt < 0x80000000)) = true := by
    simp only [Bool.and_eq_true, decide_eq_true_eq]
    omega
  rw [signedOf, if_pos hfits]
  exact congrArg Except.ok (Int32.ofInt_toInt n)

theorem dateOf_text {t : Instant} (h : Timestamp.Exact t) :
    dateOf (Timestamp.text t) = .ok (some t) := by
  rw [dateOf, Timestamp.read?_text_of_exact h]

theorem Schema.ofValue_date_text (s : String) : Schema.date.ofValue (.text s) = dateOf s := rfl

/-- A date is read from its text. -/
theorem Schema.ofValue_canonical_date {t : Instant} (h : Timestamp.Exact t) :
    Schema.date.ofValue (Schema.date.toValue (some t)).canonical = .ok (some t) := by
  rw [Schema.toValue, Value.canonical, Schema.ofValue_date_text]
  exact dateOf_text h

/-- The items of a list are those that were written, each in its order. -/
theorem Schema.canonicalItems_map {item : Schema} (as : List item.Val) :
    Value.canonicalItems (List.map item.toValue as) =
      as.map fun a => (item.toValue a).canonical := by
  rw [Value.canonicalItems_eq_map, List.map_map]
  rfl

/-- A list is read if its items are. -/
theorem Schema.ofValue_canonical_list {item : Schema} {as : List item.Val}
    (h : ∀ a ∈ as, item.ofValue (item.toValue a).canonical = .ok a) :
    (Schema.list item).ofValue ((Schema.list item).toValue as).canonical = .ok as := by
  show (Value.canonicalItems (List.map item.toValue as)).mapM item.ofValue = .ok as
  rw [canonicalItems_map]
  exact mapM_map_ok h

theorem Label.own_eq_nil {label : Label} {ms : List (String × Value)}
    (h : ∀ m ∈ ms, label.covers m.1 = false) : label.own ms = [] :=
  List.filter_eq_nil_iff.mpr fun m hm => by rw [h m hm]; decide

theorem Label.others_eq_self {label : Label} {ms : List (String × Value)}
    (h : ∀ m ∈ ms, label.covers m.1 = false) : label.others ms = ms :=
  List.filter_eq_self.mpr fun m hm => by rw [h m hm]; rfl

theorem Label.covers_name (label : Label) : label.covers label.name = true := by
  rw [covers, decide_eq_true rfl, Bool.true_or]

theorem member?_isSome_iff {α : Type} {name : String} {ms : List (String × α)} :
    (member? name ms).isSome = true ↔ name ∈ ms.map (·.1) := by
  rw [member?, Option.isSome_map, List.find?_isSome]
  simp only [decide_eq_true_eq, List.mem_map]

/-- Whether a record that was written has a member is told by its names. -/
theorem Schema.get?_canonical_isSome {member : String} {name : String} {fs : Fields}
    (h : fs.faithful = true) (row : fs.Row) :
    (((Schema.record name fs).toValue row).canonical.get? member).isSome = true ↔
      member ∈ (fs.toMembers row).map (·.1) := by
  have hnames : (Value.canonicalMembers (fs.toMembers row)).map (·.1) =
      (fs.toMembers row).map (·.1) := by
    rw [Value.canonicalMembers_eq_map, List.map_map]
    rfl
  have hperm := (sorted_perm (hnames ▸ Fields.nodup_toMembers h row)).map (·.1)
  refine member?_isSome_iff.trans ?_
  rw [hperm.mem_iff, hnames]

/-- A record that always has the member is told by it. -/
theorem Schema.get?_canonical_present {member : String} : ∀ {s : Schema},
    member ∈ s.steadyNames → s.faithful = true → ∀ a : s.Val,
      ((s.toValue a).canonical.get? member).isSome = true
  | .record _ _, hmember, hs, row => by
    obtain ⟨v, hv⟩ := Fields.exists_mem_toMembers hmember row
    exact (get?_canonical_isSome hs row).mpr (List.mem_map.mpr ⟨(member, v), hv, rfl⟩)

/-- A record that never has the member is told by its absence. -/
theorem Schema.get?_canonical_absent {member : String} : ∀ {s : Schema}, s.isRecord = true →
    member ∉ s.names → s.faithful = true → ∀ a : s.Val,
      ((s.toValue a).canonical.get? member).isSome = false
  | .record _ fields, _, hmember, hs, row => by
    rw [← Bool.not_eq_true]
    intro h
    obtain ⟨m, hm, hname⟩ := List.mem_map.mp ((get?_canonical_isSome hs row).mp h)
    exact hmember (hname ▸ Fields.fst_mem_names hm)

section Fork

variable {member presentNoun absentNoun : String} {present absent : Schema} {v : Value}

theorem Schema.ofValue_fork :
    (Schema.fork member presentNoun present absentNoun absent).ofValue v =
      if (v.get? member).isSome then
        ((present.ofValue v).map .inl).mapError (.badRecord presentNoun)
      else ((absent.ofValue v).map .inr).mapError (.badRecord absentNoun) := rfl

/-- A fork reads by the schema that the member tells. -/
theorem Schema.ofValue_fork_present {a : present.Val}
    (hv : (v.get? member).isSome = true) (h : present.ofValue v = .ok a) :
    (Schema.fork member presentNoun present absentNoun absent).ofValue v = .ok (.inl a) := by
  rw [ofValue_fork, if_pos hv, h]
  rfl

theorem Schema.ofValue_fork_absent {a : absent.Val}
    (hv : (v.get? member).isSome = false) (h : absent.ofValue v = .ok a) :
    (Schema.fork member presentNoun present absentNoun absent).ofValue v = .ok (.inr a) := by
  rw [ofValue_fork, if_neg (by rw [hv]; decide), h]
  rfl

/-- A fork is read by way of the value. -/
theorem Schema.reader_fork {levels : Nat} :
    (Schema.fork member presentNoun present absentNoun absent).reader levels =
      Document.value levels >>= fun v =>
        Reader.standing
          ((Schema.fork member presentNoun present absentNoun absent).ofValue v) := rfl

end Fork

/-- Where no name is repeated, sorting the members of an object does not change what a record makes
of it. -/
theorem Schema.ofValue_canonical_object_iff {name : String} {fs : Fields}
    {ms : List (String × Value)} (hnames : (ms.map (·.1)).Nodup) {row : fs.Row} :
    (Schema.record name fs).ofValue (Value.object ms).canonical = .ok row ↔
      fs.Holds (ms.map fun m => (m.1, m.2.canonical)) row := by
  have hnames' : ((Value.canonicalMembers ms).map (·.1)).Nodup := by
    rw [Value.canonicalMembers_eq_map, List.map_map]
    exact hnames
  have hperm := sorted_perm hnames'
  rw [← Value.canonicalMembers_eq_map]
  exact Schema.ofValue_object_iff.trans ⟨fun h => h.perm hperm, fun h => h.perm hperm.symm⟩

/-- A record is read if its fields hold the row. -/
theorem Schema.ofValue_canonical_record_iff {name : String} {fs : Fields}
    (h : fs.faithful = true) {row row' : fs.Row} :
    (Schema.record name fs).ofValue ((Schema.record name fs).toValue row).canonical = .ok row' ↔
      fs.Holds ((fs.toMembers row).map fun m => (m.1, m.2.canonical)) row' :=
  ofValue_canonical_object_iff (Fields.nodup_toMembers h row)

/-- The field in front takes its own member, and the fields behind it hold the others. -/
theorem Fields.holds_canonical_cons {label : Label} {schema : Schema} {rest : Fields}
    (h : (Fields.cons label schema rest).faithful = true) {a : schema.Val} {row : rest.Row}
    (ha : schema.ofValue (schema.toValue a).canonical = .ok a)
    (hrow : rest.Holds ((rest.toMembers row).map fun m => (m.1, m.2.canonical)) row) :
    (Fields.cons label schema rest).Holds
      (((Fields.cons label schema rest).toMembers (a, row)).map fun m => (m.1, m.2.canonical))
      (a, row) := by
  have hforeign := not_covers_of_mem_map h row Value.canonical
  have hown := Label.own_eq_nil hforeign
  have hothers := Label.others_eq_self hforeign
  -- Since all names differ, the field in front finds its own member or none.
  rcases toMembers_cons_faithful h a row with ⟨hmissing, heq⟩ | heq
  · rw [heq]
    refine ⟨?_, ?_⟩
    · rw [hown]
      exact hmissing
    · rwa [hothers]
  · rw [heq, List.map_cons]
    refine ⟨?_, ?_⟩
    · rw [Label.own_cons, if_pos label.covers_name, hown]
      exact ha
    · rwa [Label.others_cons, if_pos label.covers_name, hothers]

mutual

/-- What a schema writes is read from the value that it denotes. -/
theorem Schema.ofValue_canonical : ∀ (s : Schema), s.faithful = true → ∀ a : s.Val,
    (∀ t ∈ s.dates a, Timestamp.Exact t) → s.ofValue (s.toValue a).canonical = .ok a
  | .text, _, _, _ => rfl
  | .flag, _, _, _ => rfl
  | .count, _, n, _ => countOf_toNat n
  | .signed, _, n, _ => signedOf_toInt n
  | .date, _, none, _ => rfl
  | .date, _, some t, h => Schema.ofValue_canonical_date (h t List.mem_cons_self)
  | .tag known other, hs, some i, _ =>
    congrArg Except.ok (tagOf_get (Schema.faithful_tag_iff.mp hs).1 i)
  | .tag known other, hs, none, _ =>
    congrArg Except.ok (tagOf_eq_none (Schema.faithful_tag_iff.mp hs).2)
  | .optional _, _, none, _ => rfl
  | .optional inner, hs, some a, h => by
    obtain ⟨hnull, hinner⟩ := Schema.faithful_optional_iff.mp hs
    have hread := Schema.ofValue_canonical inner hinner a h
    have hne := Value.canonical_ne_null (Schema.toValue_ne_null hnull a)
    rw [Schema.toValue, Schema.ofValue_optional hne, hread]
    rfl
  | .list item, hs, as, h => Schema.ofValue_canonical_list fun a ha =>
    Schema.ofValue_canonical item hs a fun t ht => h t (List.mem_flatMap.mpr ⟨a, ha, ht⟩)
  | .record name fields, hs, row, h =>
    (Schema.ofValue_canonical_record_iff hs).mpr (Fields.holds_canonical fields hs row h)
  | .fork member _ present _ absent, hs, .inl a, h => by
    obtain ⟨hmember, -, -, hpresent, -⟩ := Schema.faithful_fork_iff.mp hs
    exact Schema.ofValue_fork_present (Schema.get?_canonical_present hmember hpresent a)
      (Schema.ofValue_canonical present hpresent a h)
  | .fork member _ present _ absent, hs, .inr a, h => by
    obtain ⟨-, hrecord, hmember, -, habsent⟩ := Schema.faithful_fork_iff.mp hs
    exact Schema.ofValue_fork_absent (Schema.get?_canonical_absent hrecord hmember habsent a)
      (Schema.ofValue_canonical absent habsent a h)

/-- The fields of a record hold the row that was written. -/
theorem Fields.holds_canonical : ∀ (fs : Fields), fs.faithful = true → ∀ row : fs.Row,
    (∀ t ∈ fs.dates row, Timestamp.Exact t) →
      fs.Holds ((fs.toMembers row).map fun m => (m.1, m.2.canonical)) row
  | .nil, _, _, _ => trivial
  | .cons label schema rest, hs, (a, row), h => by
    obtain ⟨-, -, hschema, hrest⟩ := Fields.faithful_cons_iff.mp hs
    have ha := Schema.ofValue_canonical schema hschema a fun t ht =>
      h t (List.mem_append_left _ ht)
    have hrow := Fields.holds_canonical rest hrest row fun t ht =>
      h t (List.mem_append_right _ ht)
    exact Fields.holds_canonical_cons hs ha hrow

end

end Json
end CodeQuality
