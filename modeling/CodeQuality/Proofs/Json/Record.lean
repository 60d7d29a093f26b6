import CodeQuality.Json.Schema.Reader
import CodeQuality.Proofs.Steps

/-!
# What a record holds

A record is read from an object member by member, and every member finds its field among the slots.
What comes out does not depend on this walk: each field has at most one member that it covers, reads
that member by its schema, and is zero if there is none and none is needed. `Fields.Holds` says so,
and `Schema.ofValue_object_iff` that it is exactly when reading succeeds.

* `Fields.gather_cons_iff` — the walk, taken apart field by field.
* `Schema.ofValue_object_iff` — reading a record from an object.
* `Fields.Holds.perm` — the order of the members does not matter.
-/

namespace CodeQuality
namespace Json

variable {α : Type}

/-- `a` is what a field with this label makes of the members that it covers. -/
def Label.Takes (label : Label) (read : Value → Except Cause α) (zero : α) :
    List (String × Value) → α → Prop
  | [], a => label.required = false ∧ a = zero
  | [m], a => read m.2 = .ok a
  | _ :: _ :: _, _ => False

/-- The members that belong to the field. -/
def Label.own (label : Label) (ms : List (String × Value)) : List (String × Value) :=
  ms.filter fun m => label.covers m.1

/-- The members that do not belong to the field. -/
def Label.others (label : Label) (ms : List (String × Value)) : List (String × Value) :=
  ms.filter fun m => !label.covers m.1

theorem Label.own_cons (label : Label) (m : String × Value) (ms : List (String × Value)) :
    label.own (m :: ms) = if label.covers m.1 then m :: label.own ms else label.own ms :=
  List.filter_cons

theorem Label.others_cons (label : Label) (m : String × Value) (ms : List (String × Value)) :
    label.others (m :: ms) =
      if label.covers m.1 then label.others ms else m :: label.others ms := by
  rw [others, List.filter_cons]
  cases label.covers m.1 <;> rfl

/-- Each field makes its value of `row` of the members that it covers and no field before it does.
-/
def Fields.Holds : (fs : Fields) → List (String × Value) → fs.Row → Prop
  | .nil, _, _ => True
  | .cons label schema rest, ms, (a, row) =>
    label.Takes schema.ofValue schema.zero (label.own ms) a ∧
      rest.Holds (label.others ms) row

/-! ### The walk through the members -/

/-- The slots of a record, taken apart. -/
def Fields.slotsCons (label : Label) {schema : Schema} {rest : Fields} (slot : Option schema.Val)
    (slots : rest.Slots) : (Fields.cons label schema rest).Slots := (slot, slots)

/-- The row of a record, taken apart. -/
def Fields.rowCons (label : Label) {schema : Schema} {rest : Fields} (a : schema.Val)
    (row : rest.Row) : (Fields.cons label schema rest).Row := (a, row)

/-- What the slots hold behind some members. -/
def Fields.gather (fs : Fields) (ms : List (String × Value)) (slots : fs.Slots) :
    Except Cause fs.Slots :=
  ms.foldlM (fun slots m => fs.memberOfValue m.1 m.2 slots) slots

/-- A slot that holds `slot` holds `slot'` behind some members that its field covers. -/
def Fills (read : Value → Except Cause α) : Option α → List (String × Value) → Option α → Prop
  | slot, [], slot' => slot' = slot
  | none, m :: ms, slot' => ∃ a, read m.2 = .ok a ∧ Fills read (some a) ms slot'
  | some _, _ :: _, _ => False

section Walk

variable {label : Label} {schema : Schema} {rest : Fields} {slot slot' : Option schema.Val}
  {slots slots' : rest.Slots}

theorem Fields.gather_nil_iff {fs : Fields} {slots slots' : fs.Slots} :
    fs.gather [] slots = .ok slots' ↔ slots = slots' :=
  ⟨Except.ok.inj, congrArg Except.ok⟩

theorem Fields.gather_cons {fs : Fields} {m : String × Value} {ms : List (String × Value)}
    {slots : fs.Slots} :
    fs.gather (m :: ms) slots = fs.memberOfValue m.1 m.2 slots >>= fs.gather ms :=
  List.foldlM_cons

theorem Fields.slotsCons_inj :
    slotsCons label slot slots = slotsCons label slot' slots' ↔ slot = slot' ∧ slots = slots' :=
  ⟨Prod.mk.inj, fun ⟨h, h'⟩ => h ▸ h' ▸ rfl⟩

theorem Fields.memberOfValue_cons (name : String) (v : Value) :
    (Fields.cons label schema rest).memberOfValue name v (slotsCons label slot slots) =
      if label.covers name then
        match slot with
        | some _ => .error (.repeatedMember label.name)
        | none => schema.ofValue v >>= fun a => .ok (slotsCons label (some a) slots)
      else rest.memberOfValue name v slots >>= fun slots' => .ok (slotsCons label slot slots') :=
  rfl

/-- A member of the first field is read into its empty slot. -/
theorem Fields.memberOfValue_of_covers {name : String} {v : Value} {s : _}
    (h : label.covers name = true) :
    (Fields.cons label schema rest).memberOfValue name v (slotsCons label slot slots) = .ok s ↔
      slot = none ∧ ∃ a, schema.ofValue v = .ok a ∧ s = slotsCons label (some a) slots := by
  rw [memberOfValue_cons, if_pos h]
  cases slot with
  | some a =>
    refine ⟨(fun h => nomatch h), ?_⟩
    rintro ⟨h, -⟩
    nomatch h
  | none =>
    refine ok_bind_iff.trans ⟨fun ⟨a, ha, hs⟩ => ⟨rfl, a, ha, (Except.ok.inj hs).symm⟩, ?_⟩
    rintro ⟨-, a, ha, hs⟩
    exact ⟨a, ha, congrArg _ hs.symm⟩

/-- Any other member goes to the fields behind it. -/
theorem Fields.memberOfValue_of_not_covers {name : String} {v : Value} {s : _}
    (h : label.covers name = false) :
    (Fields.cons label schema rest).memberOfValue name v (slotsCons label slot slots) = .ok s ↔
      ∃ slots', rest.memberOfValue name v slots = .ok slots' ∧ s = slotsCons label slot slots' := by
  rw [memberOfValue_cons, if_neg (by rw [h]; decide)]
  refine ok_bind_iff.trans ⟨fun ⟨slots', hr, hs⟩ => ⟨slots', hr, (Except.ok.inj hs).symm⟩, ?_⟩
  rintro ⟨slots', hr, hs⟩
  exact ⟨slots', hr, congrArg _ hs.symm⟩

/-- The members that the first field covers fill its slot, and all others go to the fields behind
it. -/
theorem Fields.gather_cons_iff {ms : List (String × Value)} :
    (Fields.cons label schema rest).gather ms (slotsCons label slot slots) =
        .ok (slotsCons label slot' slots') ↔
      Fills schema.ofValue slot (label.own ms) slot' ∧
        rest.gather (label.others ms) slots = .ok slots' := by
  induction ms generalizing slot slots with
  | nil =>
    show _ ↔ Fills schema.ofValue slot [] slot' ∧ rest.gather [] slots = .ok slots'
    rw [gather_nil_iff, slotsCons_inj, gather_nil_iff, Fills, eq_comm (a := slot')]
  | cons m ms ih =>
    rw [gather_cons, ok_bind_iff, Label.own_cons, Label.others_cons]
    -- A covered member fills the slot, and any other one goes on to the fields behind.
    cases hc : label.covers m.1 with
    | true =>
      rw [if_pos rfl, if_pos rfl]
      simp only [memberOfValue_of_covers hc]
      constructor
      · rintro ⟨s, ⟨rfl, a, ha, rfl⟩, hs⟩
        obtain ⟨hfills, hrest⟩ := ih.mp hs
        exact ⟨⟨a, ha, hfills⟩, hrest⟩
      · rintro ⟨hfills, hrest⟩
        cases slot with
        | some _ => exact hfills.elim
        | none =>
          obtain ⟨a, ha, hfills⟩ := hfills
          exact ⟨_, ⟨rfl, a, ha, rfl⟩, ih.mpr ⟨hfills, hrest⟩⟩
    | false =>
      rw [if_neg Bool.false_ne_true, if_neg Bool.false_ne_true, gather_cons, ok_bind_iff]
      simp only [memberOfValue_of_not_covers hc]
      constructor
      · rintro ⟨s, ⟨slots₁, h₁, rfl⟩, hs⟩
        obtain ⟨hfills, hrest⟩ := ih.mp hs
        exact ⟨hfills, slots₁, h₁, hrest⟩
      · rintro ⟨hfills, slots₁, h₁, hrest⟩
        exact ⟨_, ⟨slots₁, h₁, rfl⟩, ih.mpr ⟨hfills, hrest⟩⟩

/-- A row is complete if each slot is filled or need not be. -/
theorem Fields.row_cons_iff {a : schema.Val} {row : rest.Row} :
    (Fields.cons label schema rest).row (slotsCons label slot slots) = .ok (rowCons label a row) ↔
      (slot = some a ∨ slot = none ∧ label.required = false ∧ a = schema.zero) ∧
        rest.row slots = .ok row := by
  -- A filled slot is taken as it is; an empty one needs a field that may be missing.
  cases slot with
  | some b =>
    refine (ok_bind_iff (x := rest.row slots) (f := fun row => .ok (rowCons label b row))).trans ?_
    constructor
    · rintro ⟨row', hrow, heq⟩
      obtain ⟨rfl, rfl⟩ := Prod.mk.inj (Except.ok.inj heq)
      exact ⟨.inl rfl, hrow⟩
    · rintro ⟨h | ⟨h, -⟩, hrow⟩
      · obtain rfl := Option.some.inj h
        exact ⟨row, hrow, rfl⟩
      · nomatch h
  | none =>
    have hrow_none : (Fields.cons label schema rest).row (slotsCons label none slots) =
        if label.required then .error label
        else rest.row slots >>= fun row => .ok (rowCons label schema.zero row) := rfl
    rw [hrow_none]
    cases hreq : label.required with
    | true =>
      refine ⟨(fun h => nomatch h), ?_⟩
      rintro ⟨h | ⟨-, h, -⟩, -⟩ <;> nomatch h
    | false =>
      rw [if_neg Bool.false_ne_true, ok_bind_iff]
      constructor
      · rintro ⟨row', hrow, heq⟩
        obtain ⟨ha, rfl⟩ := Prod.mk.inj (Except.ok.inj heq)
        exact ⟨.inr ⟨rfl, rfl, ha.symm⟩, hrow⟩
      · rintro ⟨h | ⟨-, -, rfl⟩, hrow⟩
        · nomatch h
        · exact ⟨row, hrow, rfl⟩

end Walk

/-- A slot that was empty is filled by at most one member. -/
theorem Label.takes_iff {label : Label} {read : Value → Except Cause α} {zero : α}
    {ms : List (String × Value)} {a : α} :
    label.Takes read zero ms a ↔ ∃ slot, Fills read none ms slot ∧
      (slot = some a ∨ slot = none ∧ label.required = false ∧ a = zero) := by
  match ms with
  | [] =>
    constructor
    · exact fun h => ⟨none, rfl, .inr ⟨rfl, h⟩⟩
    · rintro ⟨slot, rfl, h | ⟨-, h⟩⟩
      · nomatch h
      · exact h
  | [m] =>
    constructor
    · exact fun h => ⟨some a, ⟨a, h, rfl⟩, .inl rfl⟩
    · rintro ⟨slot, ⟨b, hb, rfl⟩, h | ⟨h, -⟩⟩
      · exact Option.some.inj h ▸ hb
      · nomatch h
  | _ :: _ :: _ =>
    constructor
    · exact False.elim
    · rintro ⟨slot, ⟨b, hb, h⟩, -⟩
      exact h

/-- A record without fields takes no notice of its members. -/
theorem Fields.gather_nil_fields (ms : List (String × Value)) :
    Fields.nil.gather ms () = .ok () := by
  induction ms with
  | nil => rfl
  | cons m ms ih => exact ih

/-- The walk through the members succeeds and leaves a complete row exactly if the fields hold it.
-/
theorem Fields.holds_iff {fs : Fields} {ms : List (String × Value)} {row : fs.Row} :
    fs.Holds ms row ↔ ∃ slots, fs.gather ms fs.emptySlots = .ok slots ∧ fs.row slots = .ok row := by
  match fs, row with
  | .nil, () => exact ⟨fun _ => ⟨(), gather_nil_fields ms, rfl⟩, fun _ => trivial⟩
  | .cons label schema rest, (a, row) =>
    have ih : rest.Holds (label.others ms) row ↔ ∃ slots,
      rest.gather (label.others ms) rest.emptySlots = .ok slots ∧ rest.row slots = .ok row :=
    holds_iff
    show label.Takes schema.ofValue schema.zero (label.own ms) a ∧
        rest.Holds (label.others ms) row ↔
      ∃ slots, (Fields.cons label schema rest).gather ms (slotsCons label none rest.emptySlots) =
        .ok slots ∧ (Fields.cons label schema rest).row slots = .ok (rowCons label a row)
    rw [Label.takes_iff, ih]
    constructor
    · rintro ⟨⟨slot, hfills, hslot⟩, slots, hgather, hrow⟩
      exact ⟨slotsCons label slot slots, gather_cons_iff.mpr ⟨hfills, hgather⟩,
        row_cons_iff.mpr ⟨hslot, hrow⟩⟩
    · rintro ⟨⟨slot, slots⟩, hgather, hrow⟩
      obtain ⟨hfills, hgather⟩ := gather_cons_iff.mp hgather
      obtain ⟨hslot, hrow⟩ := row_cons_iff.mp hrow
      exact ⟨⟨slot, hfills, hslot⟩, slots, hgather, hrow⟩

/-- A record is read from an object exactly if its fields hold the row. -/
theorem Schema.ofValue_object_iff {name : String} {fs : Fields} {ms : List (String × Value)}
    {row : fs.Row} :
    (Schema.record name fs).ofValue (.object ms) = .ok row ↔ fs.Holds ms row := by
  refine (ok_bind_iff (x := fs.gather ms fs.emptySlots)
    (f := fun slots => (fs.row slots).mapError missing)).trans ?_
  rw [Fields.holds_iff]
  simp only [mapError_ok_iff]

/-! ### The order of the members -/

theorem Label.Takes.perm {label : Label} {read : Value → Except Cause α} {zero : α}
    {ms ms' : List (String × Value)} {a : α} (h : label.Takes read zero ms a)
    (hp : ms.Perm ms') : label.Takes read zero ms' a := by
  match ms with
  | [] => rwa [List.nil_perm.mp hp]
  | [m] =>
    obtain rfl := List.singleton_perm.mp hp
    exact h
  | _ :: _ :: _ => exact h.elim

/-- The order of the members does not matter. -/
theorem Fields.Holds.perm : ∀ {fs : Fields} {ms ms' : List (String × Value)} {row : fs.Row},
    fs.Holds ms row → ms.Perm ms' → fs.Holds ms' row
  | .nil, _, _, _, _, _ => trivial
  | .cons _ _ _, _, _, (_, _), ⟨hown, hothers⟩, hp =>
    ⟨hown.perm (hp.filter _), hothers.perm (hp.filter _)⟩

end Json
end CodeQuality
