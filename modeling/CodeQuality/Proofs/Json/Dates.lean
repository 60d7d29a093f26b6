import CodeQuality.Proofs.Json.Accepts
import CodeQuality.Proofs.Json.RoundTrip

/-!
# Dates in what is read

Every date that a schema reads exists, since no other timestamp denotes one. What is written of a
value is the same when its dates are cut to milliseconds, and cut dates of the years 0 to 9999 are
read back exactly.

* `Schema.cut` — a value with its dates cut.
* `Schema.toValue_cut` — what is written of it.
* `Schema.dated_of_read` — every date that is read exists.
-/

namespace CodeQuality
namespace Json

/-! ### Dates cut to milliseconds -/

mutual

/-- A value with its dates cut to milliseconds. -/
def Schema.cut : (s : Schema) → s.Val → s.Val
  | .any, v => v
  | .text, s => s
  | .flag, b => b
  | .count, n => n
  | .signed, n => n
  | .date, d => Option.map Instant.cutToMillis d
  | .tag _ _, tag => tag
  | .optional inner, a => Option.map inner.cut a
  | .list item, as => List.map item.cut as
  | .record _ fields, row => fields.cut row
  | .fork _ _ present _ _, .inl a => .inl (present.cut a)
  | .fork _ _ _ _ absent, .inr a => .inr (absent.cut a)

def Fields.cut : (fs : Fields) → fs.Row → fs.Row
  | .nil, _ => ()
  | .cons _ schema rest, (a, row) => (schema.cut a, rest.cut row)

end

mutual

/-- What is written does not show what is cut off. -/
theorem Schema.toValue_cut : ∀ (s : Schema) (a : s.Val), s.toValue (s.cut a) = s.toValue a
  | .any, _ => rfl
  | .text, _ => rfl
  | .flag, _ => rfl
  | .count, _ => rfl
  | .signed, _ => rfl
  | .date, none => rfl
  | .date, some t => congrArg Value.text (Timestamp.text_cutToMillis t)
  | .tag _ _, _ => rfl
  | .optional _, none => rfl
  | .optional inner, some a => Schema.toValue_cut inner a
  | .list item, _ =>
    congrArg Value.list (List.map_map.trans
      (List.map_congr_left fun a _ => Schema.toValue_cut item a))
  | .record _ fields, row => congrArg Value.object (Fields.toMembers_cut fields row)
  | .fork _ _ present _ _, .inl a => Schema.toValue_cut present a
  | .fork _ _ _ _ absent, .inr a => Schema.toValue_cut absent a

theorem Fields.toMembers_cut : ∀ (fs : Fields) (row : fs.Row),
    fs.toMembers (fs.cut row) = fs.toMembers row
  | .nil, _ => rfl
  | .cons label schema rest, (a, row) => by
    have ha := Schema.toValue_cut schema a
    have hrow := Fields.toMembers_cut rest row
    show (Fields.cons label schema rest).toMembers (schema.cut a, rest.cut row) = _
    rw [Fields.toMembers, Fields.toMembers, ha, hrow]

end

mutual

theorem Schema.dates_cut : ∀ (s : Schema) (a : s.Val),
    s.dates (s.cut a) = (s.dates a).map Instant.cutToMillis
  | .any, _ => rfl
  | .text, _ => rfl
  | .flag, _ => rfl
  | .count, _ => rfl
  | .signed, _ => rfl
  | .date, none => rfl
  | .date, some _ => rfl
  | .tag _ _, _ => rfl
  | .optional _, none => rfl
  | .optional inner, some a => Schema.dates_cut inner a
  | .list item, as => by
    have hitems : List.flatMap (fun a => item.dates (item.cut a)) as =
        List.flatMap (fun a => (item.dates a).map Instant.cutToMillis) as :=
      congrArg List.flatten (List.map_congr_left fun a _ => Schema.dates_cut item a)
    exact (List.flatMap_map _ _ _).trans (hitems.trans List.map_flatMap.symm)
  | .record _ fields, row => Fields.dates_cut fields row
  | .fork _ _ present _ _, .inl a => Schema.dates_cut present a
  | .fork _ _ _ _ absent, .inr a => Schema.dates_cut absent a

theorem Fields.dates_cut : ∀ (fs : Fields) (row : fs.Row),
    fs.dates (fs.cut row) = (fs.dates row).map Instant.cutToMillis
  | .nil, _ => rfl
  | .cons label schema rest, (a, row) => by
    show schema.dates (schema.cut a) ++ rest.dates (rest.cut row) = List.map _ (_ ++ _)
    rw [List.map_append, Schema.dates_cut schema a, Fields.dates_cut rest row]

end

theorem Schema.dates_date (d : Option Instant) : Schema.date.dates d = d.toList := by
  cases d <;> rfl

/-! ### Schemas without dates -/

mutual

/-- Is there no date in a value of the schema? -/
def Schema.timeless : Schema → Bool
  | .date => false
  | .optional inner => inner.timeless
  | .list item => item.timeless
  | .record _ fields => fields.timeless
  | .fork _ _ present _ absent => present.timeless && absent.timeless
  | _ => true

def Fields.timeless : Fields → Bool
  | .nil => true
  | .cons _ schema rest => schema.timeless && rest.timeless

end

mutual

/-- Where there is no date, none is cut. -/
theorem Schema.cut_of_timeless : ∀ {s : Schema}, s.timeless = true → ∀ a : s.Val, s.cut a = a
  | .any, _, _ | .text, _, _ | .flag, _, _ | .count, _, _ | .signed, _, _ | .tag _ _, _, _ => rfl
  | .optional _, _, none => rfl
  | .optional inner, h, some a => congrArg some (Schema.cut_of_timeless (s := inner) h a)
  | .list item, h, as =>
    (List.map_congr_left fun a _ => Schema.cut_of_timeless (s := item) h a).trans (List.map_id as)
  | .record _ fields, h, row => Fields.cut_of_timeless (show fields.timeless = true from h) row
  | .fork _ _ _ _ _, h, .inl a =>
    congrArg Sum.inl (Schema.cut_of_timeless (Bool.and_eq_true_iff.mp h).1 a)
  | .fork _ _ _ _ _, h, .inr a =>
    congrArg Sum.inr (Schema.cut_of_timeless (Bool.and_eq_true_iff.mp h).2 a)

theorem Fields.cut_of_timeless : ∀ {fs : Fields}, fs.timeless = true → ∀ row : fs.Row,
    fs.cut row = row
  | .nil, _, _ => rfl
  | .cons _ _ _, h, (a, row) =>
    congr (congrArg Prod.mk (Schema.cut_of_timeless (Bool.and_eq_true_iff.mp h).1 a))
      (Fields.cut_of_timeless (Bool.and_eq_true_iff.mp h).2 row)

end

mutual

theorem Schema.dates_of_timeless : ∀ {s : Schema}, s.timeless = true → ∀ a : s.Val, s.dates a = []
  | .any, _, _ | .text, _, _ | .flag, _, _ | .count, _, _ | .signed, _, _ | .tag _ _, _, _ => rfl
  | .optional _, _, none => rfl
  | .optional inner, h, some a => Schema.dates_of_timeless (s := inner) h a
  | .list item, h, _ =>
    List.flatMap_eq_nil_iff.mpr fun a _ => Schema.dates_of_timeless (s := item) h a
  | .record _ fields, h, row => Fields.dates_of_timeless (show fields.timeless = true from h) row
  | .fork _ _ _ _ _, h, .inl a => Schema.dates_of_timeless (Bool.and_eq_true_iff.mp h).1 a
  | .fork _ _ _ _ _, h, .inr a => Schema.dates_of_timeless (Bool.and_eq_true_iff.mp h).2 a

theorem Fields.dates_of_timeless : ∀ {fs : Fields}, fs.timeless = true → ∀ row : fs.Row,
    fs.dates row = []
  | .nil, _, _ => rfl
  | .cons _ _ _, h, (a, row) => List.append_eq_nil_iff.mpr
    ⟨Schema.dates_of_timeless (Bool.and_eq_true_iff.mp h).1 a,
      Fields.dates_of_timeless (Bool.and_eq_true_iff.mp h).2 row⟩

end

/-! ### Dates exist -/

/-- Do all dates of the value exist? -/
def Schema.Dated (s : Schema) (a : s.Val) : Prop := ∀ t ∈ s.dates a, t.valid = true

def Fields.Dated (fs : Fields) (row : fs.Row) : Prop := ∀ t ∈ fs.dates row, t.valid = true

/-- Cut dates are exact, if they exist and their years have four digits. -/
theorem Schema.exact_cut {s : Schema} {a : s.Val} (hvalid : s.Dated a)
    (hyears : ∀ t ∈ s.dates a, 0 ≤ t.year ∧ t.year ≤ 9999) :
    ∀ t ∈ s.dates (s.cut a), Timestamp.Exact t := by
  rw [dates_cut, List.forall_mem_map]
  intro t ht
  exact Timestamp.exact_cutToMillis (hvalid t ht) (hyears t ht).1 (hyears t ht).2

theorem Schema.dated_of_timeless {s : Schema} (h : s.timeless = true) (a : s.Val) : s.Dated a := by
  rw [Dated, dates_of_timeless h]
  exact List.forall_mem_nil _

section Parts

variable {label : Label} {schema : Schema} {rest : Fields}

theorem Fields.dated_cons {a : schema.Val} {row : rest.Row} (ha : schema.Dated a)
    (hrow : rest.Dated row) : (Fields.cons label schema rest).Dated (a, row) :=
  fun t ht => (List.mem_append.mp ht).elim (ha t) (hrow t)

theorem Schema.dated_list {as : List schema.Val} (h : ∀ a ∈ as, schema.Dated a) :
    (Schema.list schema).Dated as := by
  intro t ht
  obtain ⟨a, ha, ht⟩ := List.mem_flatMap.mp ht
  exact h a ha t ht

end Parts

mutual

/-- What is absent has no dates. -/
theorem Schema.dates_zero : ∀ s : Schema, s.dates s.zero = []
  | .any | .text | .flag | .count | .signed | .date | .tag _ _ | .optional _ | .list _ => rfl
  | .record _ fields => Fields.dates_zeros fields
  | .fork _ _ _ _ absent => Schema.dates_zero absent

theorem Fields.dates_zeros : ∀ fs : Fields, fs.dates fs.zeros = []
  | .nil => rfl
  | .cons _ schema rest =>
    List.append_eq_nil_iff.mpr ⟨Schema.dates_zero schema, Fields.dates_zeros rest⟩

end

theorem Schema.dated_zero (s : Schema) : s.Dated s.zero := by
  rw [Dated, dates_zero]
  exact List.forall_mem_nil _

/-! ### Dates from a value -/

theorem dated_of_dateOf {s : String} {d : Option Instant} (h : dateOf s = .ok d) :
    Schema.date.Dated d := by
  unfold dateOf at h
  split at h
  · next t ht =>
    cases h
    intro t' ht'
    obtain rfl := List.mem_singleton.mp ht'
    exact Timestamp.valid_of_read? ht
  · nomatch h

mutual

/-- Every date that is read from a value exists. -/
theorem Schema.dated_of_ofValue : ∀ (s : Schema) {v : Value} {a : s.Val}, s.ofValue v = .ok a →
    s.Dated a
  | .any, _, _, _ | .text, _, _, _ | .flag, _, _, _ | .count, _, _, _ | .signed, _, _, _
  | .tag _ _, _, _, _ => List.forall_mem_nil _
  | .date, .null, _, h => by
    cases h
    exact List.forall_mem_nil _
  | .date, .text _, _, h => dated_of_dateOf h
  | .optional _, _, none, _ => List.forall_mem_nil _
  | .optional inner, v, some a, h => by
    by_cases hv : v = .null
    · subst hv
      nomatch h
    · rw [Schema.ofValue_optional hv] at h
      obtain ⟨b, hb, heq⟩ := map_ok_iff.mp h
      obtain rfl := Option.some.inj heq
      exact Schema.dated_of_ofValue inner hb
  | .list item, .list vs, as, h => by
    have hitems : vs.map item.ofValue = List.map .ok as := mapM_ok_iff.mp h
    refine Schema.dated_list fun a ha => ?_
    have hmem : Except.ok a ∈ vs.map item.ofValue := hitems ▸ List.mem_map_of_mem ha
    obtain ⟨v, -, hv⟩ := List.mem_map.mp hmem
    exact Schema.dated_of_ofValue item hv
  | .record _ fields, .object _, _, h =>
    Fields.dated_of_holds fields (Schema.ofValue_object_iff.mp h)
  | .record _ fields, .list _, _, h =>
    Fields.dated_of_holdsFront fields (Schema.ofValue_list_iff.mp h)
  | .fork _ _ present _ _, _, .inl _, h =>
    Schema.dated_of_ofValue present (Schema.ofValue_fork_inl_iff.mp h).2
  | .fork _ _ _ _ absent, _, .inr _, h =>
    Schema.dated_of_ofValue absent (Schema.ofValue_fork_inr_iff.mp h).2

theorem Fields.dated_of_holds : ∀ (fs : Fields) {ms : List (String × Value)} {row : fs.Row},
    fs.Holds ms row → fs.Dated row
  | .nil, _, _, _ => List.forall_mem_nil _
  | .cons label schema rest, ms, (a, row), ⟨htakes, hrest⟩ => by
    refine Fields.dated_cons ?_ (Fields.dated_of_holds rest hrest)
    match label.own ms, htakes with
    | [], ⟨_, ha⟩ => exact ha ▸ schema.dated_zero
    | [_], hread => exact Schema.dated_of_ofValue schema hread

theorem Fields.dated_of_holdsFront : ∀ (fs : Fields) {vs left : List Value} {row : fs.Row},
    fs.HoldsFront vs left row → fs.Dated row
  | .nil, _, _, _, _ => List.forall_mem_nil _
  | .cons label schema rest, vs, left, (a, row), ⟨hfetches, hrest⟩ => by
    refine Fields.dated_cons ?_ (Fields.dated_of_holdsFront rest hrest)
    match vs.head?, hfetches with
    | none, ⟨_, ha⟩ => exact ha ▸ schema.dated_zero
    | some _, hread => exact Schema.dated_of_ofValue schema hread

end

/-! ### Dates from a document -/

section Readers

open Reader Container

variable {α : Type} {P : α → Prop}

theorem Reader.gives_unexpected (expected : Expected) : (unexpected expected).Gives P := by
  rw [unexpected]
  refine Gives.then fun l => ?_
  cases l <;> exact Gives.failHere _

theorem Reader.gives_standing {x : Except Cause α} (h : ∀ a, x = .ok a → P a) :
    (standing x).Gives P := by
  cases x with
  | error cause => exact Gives.fail cause
  | ok a => exact Gives.pure (h a rfl)

theorem Container.gives_opening {levels : Nat} {inside : Nat → Reader α}
    (h : ∀ levels, (inside levels).Gives P) : (opening levels inside).Gives P := by
  cases levels with
  | zero => exact Gives.failAhead _
  | succ levels => exact Gives.then fun _ => h levels

theorem Container.gives_list {levels : Nat} {item : Nat → Reader α}
    (h : ∀ levels, (item levels).Gives P) :
    (list levels item).Gives fun as => ∀ a ∈ as, P a := by
  refine gives_opening fun levels => Gives.settled ?_ _
  refine Gives.bind (P := fun as => ∀ a ∈ as, P a) ?_ fun as has =>
    Gives.then fun _ => Gives.pure has
  exact Gives.then fun c => gives_items (h levels) _ true [] (List.forall_mem_nil _)

end Readers

/-- Do all dates that have been read so far exist? -/
def Fields.SlotsDated : (fs : Fields) → fs.Slots → Prop
  | .nil, _ => True
  | .cons _ schema rest, (slot, slots) => (∀ a, slot = some a → schema.Dated a) ∧
    rest.SlotsDated slots

theorem Fields.slotsDated_empty : ∀ fs : Fields, fs.SlotsDated fs.emptySlots
  | .nil => trivial
  | .cons _ _ rest => ⟨nofun, slotsDated_empty rest⟩

theorem Fields.dated_of_row : ∀ (fs : Fields) {slots : fs.Slots} {row : fs.Row},
    fs.SlotsDated slots → fs.row slots = .ok row → fs.Dated row
  | .nil, _, _, _, _ => List.forall_mem_nil _
  | .cons _ schema rest, (slot, slots), (a, row), ⟨hslot, hslots⟩, h => by
    obtain ⟨hfilled | ⟨-, -, rfl⟩, hrow⟩ := row_cons_iff.mp h
    · exact dated_cons (hslot a hfilled) (dated_of_row rest hslots hrow)
    · exact dated_cons schema.dated_zero (dated_of_row rest hslots hrow)

theorem Schema.gives_dated_list {item : Schema} (levels : Nat)
    (h : ∀ levels, (item.reader levels).Gives item.Dated) :
    ((Schema.list item).reader levels).Gives (Schema.list item).Dated := by
  have hitems : ((Schema.list item).reader levels).Gives
      fun as : List item.Val => ∀ a ∈ as, item.Dated a := by
    rw [reader_list_eq]
    refine Reader.Gives.then fun c => ?_
    split
    · exact Reader.Gives.failHere _
    · exact Container.gives_list h
    · exact Reader.gives_unexpected _
  exact fun c as c' has => dated_list (hitems c as c' has)

mutual

open Reader Container

/-- Every date that is read from a document exists. -/
theorem Schema.gives_dated : ∀ (s : Schema) (levels : Nat), (s.reader levels).Gives s.Dated
  | .any, _ | .text, _ | .flag, _ | .count, _ | .signed, _ | .tag _ _, _ =>
    Gives.of_forall (fun _ => List.forall_mem_nil _) _
  | .date, levels => by
    rw [Schema.reader_date]
    refine Gives.then fun s? => ?_
    cases s? with
    | none => exact Gives.pure (List.forall_mem_nil _)
    | some s => exact gives_standing fun d hd => dated_of_dateOf hd
  | .optional inner, levels => by
    have ih := Schema.gives_dated inner levels
    rw [Schema.reader, Reader.optional]
    refine Gives.then fun c => ?_
    split
    · exact Gives.then fun _ => Gives.then fun _ => Gives.pure (List.forall_mem_nil _)
    · exact Gives.bind ih fun a ha => Gives.pure ha
  | .list item, levels => Schema.gives_dated_list levels (Schema.gives_dated item)
  | .record name fields, levels => by
    rw [Schema.reader]
    refine Gives.then fun c => ?_
    split
    · exact Gives.failHere _
    · refine gives_opening fun levels => Gives.settled ?_ _
      refine Gives.bind (P := fields.SlotsDated) ?_ fun slots hslots => ?_
      · exact Gives.then fun c => gives_members (Fields.gives_slotsDated fields levels) _ true _
          fields.slotsDated_empty
      · refine Gives.bind (P := fields.Dated) (gives_standing fun row hrow => ?_)
          fun row hrow => Gives.then fun _ => Gives.pure hrow
        exact fields.dated_of_row hslots (mapError_ok_iff.mp hrow)
    · refine gives_opening fun levels => Gives.settled ?_ _
      exact Gives.bind (Fields.gives_rowDated fields levels name fields.size 0 true)
        fun row hrow => Gives.then fun _ => Gives.pure hrow
    · exact gives_unexpected _
  | .fork member presentNoun present absentNoun absent, levels => by
    rw [Schema.reader_fork]
    exact Gives.then fun v => gives_standing fun a ha => Schema.dated_of_ofValue _ ha

theorem Fields.gives_slotsDated : ∀ (fs : Fields) (levels : Nat) (name : String) (slots : fs.Slots),
    fs.SlotsDated slots → (fs.memberReader levels name slots).Gives fs.SlotsDated
  | .nil, _, _, _, _ => Gives.of_forall (fun _ => trivial) _
  | .cons label schema rest, levels, name, (slot, slots), ⟨hslot, hslots⟩ => by
    show ((Fields.cons label schema rest).memberReader levels name
      (Fields.slotsCons label slot slots)).Gives _
    rw [Fields.memberReader_cons]
    split
    · cases slot with
      | some _ => exact Gives.fail _
      | none =>
        refine Gives.then fun _ => Gives.bind (Schema.gives_dated schema levels) fun a ha =>
          Gives.pure ⟨?_, hslots⟩
        rintro _ ⟨⟩
        exact ha
    · exact Gives.bind (Fields.gives_slotsDated rest levels name slots hslots)
        fun slots' hslots' => Gives.pure ⟨hslot, hslots'⟩

theorem Fields.gives_rowDated : ∀ (fs : Fields) (levels : Nat) (name : String)
    (total index : Nat) (first : Bool),
    (fs.rowReader levels name total index first).Gives fs.Dated
  | .nil, _, _, _, _, _ => Gives.of_forall (fun _ => List.forall_mem_nil _) _
  | .cons label schema rest, levels, name, total, index, first => by
    have ih := Fields.gives_rowDated rest levels name total (index + 1)
    rw [Fields.rowReader_cons]
    refine Gives.then fun more => ?_
    split
    · exact Gives.bind (Schema.gives_dated schema levels) fun a ha =>
        Gives.bind (ih false) fun row hrow => Gives.pure (Fields.dated_cons ha hrow)
    · split
      · exact Gives.fail _
      · exact Gives.bind (ih first) fun row hrow =>
          Gives.pure (Fields.dated_cons schema.dated_zero hrow)

end

/-- Every date that is read exists. -/
theorem Schema.dated_of_read {s : Schema} {document : String} {a : s.Val}
    (h : s.read document = .ok a) : s.Dated a := by
  obtain ⟨c, d, hc, -⟩ := Document.whole_eq_ok_iff.mp h
  exact s.gives_dated maxLevels _ a c hc

end Json
end CodeQuality
