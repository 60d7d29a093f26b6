import CodeQuality.Proofs.Json.Objects

/-!
# Records as texts

Which objects a record is read from, told by its fields. Each field has at most one member, which it
reads by its schema as a document of its own, and a member that no field covers may be any value at
all. The order of the members does not matter.

* `Fields.Fits` — what the fields make of some members.
* `Fields.Fits.perm`, `Fields.fits_cons` — their order, and members that no field covers.
* `Schema.readsText_object_iff`, `MembersText.WellFormed.read_iff` — what is read of an object.
-/

namespace CodeQuality
namespace Json

open Reader Container

variable {α : Type}

/-! ### Members by name and text -/

/-- `a` is what a field with this label makes of the members that it covers. -/
def Label.Finds (label : Label) (reads : List Char → α → Prop) (zero : α) :
    List (String × List Char) → α → Prop
  | [], a => label.required = false ∧ a = zero
  | [p], a => reads p.2 a
  | _ :: _ :: _, _ => False

/-- The members that belong to the field. -/
def Label.ownTexts (label : Label) (ps : List (String × List Char)) : List (String × List Char) :=
  ps.filter fun p => label.covers p.1

/-- The members that do not belong to the field. -/
def Label.otherTexts (label : Label) (ps : List (String × List Char)) :
    List (String × List Char) := ps.filter fun p => !label.covers p.1

namespace Fields

/-- Each field makes its value of `row` of the members that it covers, where `reads` tells what a
schema makes of a text. -/
def Fits (reads : (s : Schema) → List Char → s.Val → Prop) : (fs : Fields) →
    List (String × List Char) → fs.Row → Prop
  | .nil, _, _ => True
  | .cons label schema rest, ps, (a, row) =>
    label.Finds (reads schema) schema.zero (label.ownTexts ps) a ∧ rest.Fits reads ps row

/-- Is a field called so? -/
def heeds (fs : Fields) (name : String) : Bool := fs.labels.any fun label => label.covers name

end Fields

/-- A field that must be there has just one member. -/
theorem Label.finds_iff_of_required {label : Label} {reads : List Char → α → Prop} {zero a : α}
    {ps : List (String × List Char)} (h : label.required = true) :
    label.Finds reads zero ps a ↔ ∃ p, ps = [p] ∧ reads p.2 a := by
  match ps with
  | [] =>
    constructor
    · rintro ⟨hoptional, -⟩
      exact nomatch h.symm.trans hoptional
    · rintro ⟨p, hp, -⟩
      nomatch hp
  | [p] =>
    constructor
    · exact fun ha => ⟨p, rfl, ha⟩
    · rintro ⟨p', hp, ha⟩
      obtain rfl := List.singleton_inj.mp hp
      exact ha
  | _ :: _ :: _ =>
    constructor
    · exact False.elim
    · rintro ⟨p, hp, -⟩
      nomatch hp

theorem Label.Finds.perm {label : Label} {reads : List Char → α → Prop} {zero a : α}
    {ps ps' : List (String × List Char)} (h : label.Finds reads zero ps a) (hp : ps.Perm ps') :
    label.Finds reads zero ps' a := by
  match ps with
  | [] => rwa [List.nil_perm.mp hp]
  | [p] =>
    obtain rfl := List.singleton_perm.mp hp
    exact h
  | _ :: _ :: _ => exact h.elim

namespace Fields

variable {reads : (s : Schema) → List Char → s.Val → Prop}

/-- The order of the members does not matter. -/
theorem Fits.perm : ∀ {fs : Fields} {ps ps' : List (String × List Char)} {row : fs.Row},
    fs.Fits reads ps row → ps.Perm ps' → fs.Fits reads ps' row
  | .nil, _, _, _, _, _ => trivial
  | .cons _ _ _, _, _, (_, _), ⟨hown, hrest⟩, hp => ⟨hown.perm (hp.filter _), hrest.perm hp⟩

/-- Members that belong to no field do not matter. -/
theorem fits_filter (keep : String → Bool) : ∀ {fs : Fields} {ps : List (String × List Char)}
    {row : fs.Row}, (∀ name, fs.heeds name = true → keep name = true) →
      (fs.Fits reads (ps.filter fun p => keep p.1) row ↔ fs.Fits reads ps row)
  | .nil, _, _, _ => Iff.rfl
  | .cons label schema rest, ps, (a, row), h => by
    have hown : label.ownTexts (ps.filter fun p => keep p.1) = label.ownTexts ps := by
      rw [Label.ownTexts, List.filter_filter]
      refine List.filter_congr fun p _ => ?_
      cases hp : label.covers p.1 with
      | false => rfl
      | true =>
        have hkeep := h p.1 (by rw [heeds, labels, List.any_cons, hp, Bool.true_or])
        rw [hkeep]
        rfl
    have hrest : rest.Fits reads (ps.filter fun p => keep p.1) row ↔ rest.Fits reads ps row :=
      fits_filter keep fun name hname => h name (by
        rw [heeds, labels, List.any_cons]
        exact Bool.or_eq_true_iff.mpr (.inr hname))
    show label.Finds _ _ (label.ownTexts _) a ∧ _ ↔ label.Finds _ _ (label.ownTexts ps) a ∧ _
    rw [hown, hrest]

/-- One more member that belongs to no field does not matter. -/
theorem fits_cons {fs : Fields} {name : String} {w : List Char} {ps : List (String × List Char)}
    {row : fs.Row} (h : fs.heeds name = false) :
    fs.Fits reads ((name, w) :: ps) row ↔ fs.Fits reads ps row := by
  rw [← fits_filter fs.heeds fun _ => id, List.filter_cons, if_neg (by rw [h]; decide)]
  exact fits_filter fs.heeds fun _ => id

end Fields

/-! ### The walk through the members -/

/-- A slot that holds `slot` holds `slot'` behind some members that its field covers. -/
def FillsText (reads : List Char → α → Prop) :
    Option α → List (String × List Char) → Option α → Prop
  | slot, [], slot' => slot' = slot
  | none, p :: ps, slot' => ∃ a, reads p.2 a ∧ FillsText reads (some a) ps slot'
  | some _, _ :: _, _ => False

/-- A slot that was empty is filled by at most one member. -/
theorem Label.finds_iff {label : Label} {reads : List Char → α → Prop} {zero a : α}
    {ps : List (String × List Char)} :
    label.Finds reads zero ps a ↔ ∃ slot, FillsText reads none ps slot ∧
      (slot = some a ∨ slot = none ∧ label.required = false ∧ a = zero) := by
  match ps with
  | [] =>
    constructor
    · exact fun h => ⟨none, rfl, .inr ⟨rfl, h⟩⟩
    · rintro ⟨slot, rfl, h | ⟨-, h⟩⟩
      · nomatch h
      · exact h
  | [p] =>
    constructor
    · exact fun h => ⟨some a, ⟨a, h, rfl⟩, .inl rfl⟩
    · rintro ⟨slot, ⟨b, hb, rfl⟩, h | ⟨h, -⟩⟩
      · exact Option.some.inj h ▸ hb
      · nomatch h
  | _ :: _ :: _ =>
    constructor
    · exact False.elim
    · rintro ⟨slot, ⟨b, hb, h⟩, -⟩
      exact h

namespace Fields

section Walk

variable {label : Label} {schema : Schema} {rest : Fields} {levels : Nat}
  {slot slot' : Option schema.Val} {slots slots' : rest.Slots} {ps : List (String × List Char)}

/-- The members that the first field covers fill its slot, and all others go to the fields behind
it. -/
theorem storesAll_cons_iff :
    StoresAll ((Fields.cons label schema rest).Stores levels) ps (slotsCons label slot slots)
        (slotsCons label slot' slots') ↔
      FillsText (schema.ReadsText levels) slot (label.ownTexts ps) slot' ∧
        StoresAll (rest.Stores levels) (label.otherTexts ps) slots slots' := by
  induction ps generalizing slot slots with
  | nil =>
    show slotsCons label slot slots = _ ↔ slot' = slot ∧ slots = slots'
    rw [slotsCons_inj, eq_comm (a := slot')]
  | cons p ps ih =>
    show (∃ s₁, _ ∧ StoresAll _ ps s₁ _) ↔ _
    rw [Label.ownTexts, Label.otherTexts, List.filter_cons, List.filter_cons]
    -- A covered member fills the slot, and any other one goes on to the fields behind.
    cases hc : label.covers p.1 with
    | true =>
      simp only [stores_of_covers hc]
      constructor
      · rintro ⟨s, ⟨rfl, a, ha, rfl⟩, hs⟩
        obtain ⟨hfills, hrest⟩ := ih.mp hs
        exact ⟨⟨a, ha, hfills⟩, hrest⟩
      · rintro ⟨hfills, hrest⟩
        cases slot with
        | some _ => exact hfills.elim
        | none =>
          obtain ⟨a, ha, hfills⟩ := hfills
          exact ⟨_, ⟨rfl, a, ha, rfl⟩, ih.mpr ⟨hfills, hrest⟩⟩
    | false =>
      simp only [stores_of_not_covers hc]
      constructor
      · rintro ⟨s, ⟨later, h, rfl⟩, hs⟩
        obtain ⟨hfills, hrest⟩ := ih.mp hs
        exact ⟨hfills, later, h, hrest⟩
      · rintro ⟨hfills, later, h, hrest⟩
        exact ⟨_, ⟨later, h, rfl⟩, ih.mpr ⟨hfills, hrest⟩⟩

end Walk

/-- A record without fields passes over its members. -/
theorem storesAll_nil {levels : Nat} {ps : List (String × List Char)}
    (h : ∀ p ∈ ps, IsDocument p.2) (slots : Fields.nil.Slots) :
    StoresAll (Fields.nil.Stores levels) ps slots slots := by
  induction ps with
  | nil => rfl
  | cons p ps ih =>
    obtain ⟨hp, hps⟩ := List.forall_mem_cons.mp h
    exact ⟨slots, ⟨hp, rfl⟩, ih hps⟩

/-- The walk through some members leaves a complete row exactly if the fields fit it. -/
theorem fits_iff {levels : Nat} : ∀ {fs : Fields} {ps : List (String × List Char)} {row : fs.Row},
    fs.distinct = true → (∀ p ∈ ps, IsDocument p.2) →
      (fs.Fits (·.ReadsText levels) ps row ↔ ∃ slots,
        StoresAll (fs.Stores levels) ps fs.emptySlots slots ∧ fs.row slots = .ok row)
  | .nil, _, (), _, hps => ⟨fun _ => ⟨(), storesAll_nil hps (), rfl⟩, fun _ => trivial⟩
  | .cons label schema rest, ps, (a, row), h, hps => by
    obtain ⟨hlabels, hrest⟩ := Bool.and_eq_true_iff.mp h
    have hothers : ∀ p ∈ label.otherTexts ps, IsDocument p.2 :=
      fun p hp => hps p (List.mem_filter.mp hp).1
    -- The members of the first field belong to none of the others.
    have hkeep (name : String) (hname : rest.heeds name = true) : (!label.covers name) = true := by
      obtain ⟨l, hl, hcovers⟩ := List.any_eq_true.mp hname
      have hclash := List.all_eq_true.mp hlabels l hl
      rw [Bool.not_eq_true'] at hclash ⊢
      exact Label.not_covers_of_covers hclash hcovers
    have ih : rest.Fits (·.ReadsText levels) ps row ↔ ∃ slots,
        StoresAll (rest.Stores levels) (label.otherTexts ps) rest.emptySlots slots ∧
          rest.row slots = .ok row :=
      (fits_filter _ hkeep).symm.trans (fits_iff hrest hothers)
    show label.Finds (schema.ReadsText levels) schema.zero (label.ownTexts ps) a ∧
        rest.Fits (·.ReadsText levels) ps row ↔
      ∃ slots, StoresAll ((Fields.cons label schema rest).Stores levels) ps
        (slotsCons label none rest.emptySlots) slots ∧
          (Fields.cons label schema rest).row slots = .ok (rowCons label a row)
    rw [Label.finds_iff, ih]
    constructor
    · rintro ⟨⟨slot, hfills, hslot⟩, slots, hstores, hrow⟩
      exact ⟨slotsCons label slot slots, storesAll_cons_iff.mpr ⟨hfills, hstores⟩,
        row_cons_iff.mpr ⟨hslot, hrow⟩⟩
    · rintro ⟨⟨slot, slots⟩, hstores, hrow⟩
      obtain ⟨hfills, hstores⟩ := storesAll_cons_iff.mp hstores
      obtain ⟨hslot, hrow⟩ := row_cons_iff.mp hrow
      exact ⟨⟨slot, hfills, hslot⟩, slots, hstores, hrow⟩

end Fields

/-! ### Objects -/

section Object

variable {record : String} {fs : Fields} {levels : Nat} {row : fs.Row}

/-- The values of the members that are listed are documents. -/
theorem MembersText.WellFormed.isDocument {o : MembersText} (ho : o.WellFormed)
    {ps : List (String × List Char)} (hps : o.Lists ps) : ∀ p ∈ ps, IsDocument p.2 := by
  intro p hp
  obtain ⟨m, hm, -, hvalue⟩ := hps.exists_member hp
  exact hvalue ▸ (ho.members m hm).value

/-- A record is read from an object if the fields fit its members. -/
theorem Schema.readsText_object_iff (hfs : fs.distinct = true) {w : List Char}
    (hw : (w.dropWhile isSpace).head? = some '\x7b') :
    (Schema.record record fs).ReadsText (levels + 1) w row ↔
      ∃ (o : MembersText) (ps : List (String × List Char)), o.WellFormed ∧ o.chars = w ∧
        o.Lists ps ∧ fs.Fits (·.ReadsText levels) ps row := by
  show Document.whole _ _ = _ ↔ _
  rw [reader_record_eq]
  refine (whole_object_iff (fun name slots => Fields.readsRest fs levels name slots) rfl hw).trans
    (exists_congr fun o => exists_congr fun ps => ?_)
  constructor
  · rintro ⟨slots, ho, hchars, hps, hstores, hrow⟩
    exact ⟨ho, hchars, hps,
      (Fields.fits_iff hfs (ho.isDocument hps)).mpr ⟨slots, hstores, mapError_ok_iff.mp hrow⟩⟩
  · rintro ⟨ho, hchars, hps, hfits⟩
    obtain ⟨slots, hstores, hrow⟩ := (Fields.fits_iff hfs (ho.isDocument hps)).mp hfits
    exact ⟨slots, ho, hchars, hps, hstores, mapError_ok_iff.mpr hrow⟩

/-- What is read of an object whose members are known. -/
theorem MembersText.WellFormed.read_iff {o : MembersText} (ho : o.WellFormed)
    (hfs : fs.distinct = true) : (Schema.record record fs).ReadsText (levels + 1) o.chars row ↔
      ∃ ps, o.Lists ps ∧ fs.Fits (·.ReadsText levels) ps row := by
  refine (Schema.readsText_object_iff hfs ho.head).trans ?_
  constructor
  · rintro ⟨o', ps, ho', hchars, h⟩
    obtain rfl := ho'.eq_of_chars ho hchars
    exact ⟨ps, h⟩
  · rintro ⟨ps, h⟩
    exact ⟨o, ps, ho, rfl, h⟩

end Object

end Json
end CodeQuality
