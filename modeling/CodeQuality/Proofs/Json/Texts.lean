import CodeQuality.Proofs.Json.RecordText
import Mathlib.Data.List.Forall2

/-!
# What texts mean by a schema

What is read of a text whose records are all written as objects, told without a reader. A text that
is no container means what its value means; a list is put together of the texts of its items, and an
object of those of its members, among which each field has its own.

* `Means`, `NullOr`, `IsList`, `IsObject`, `MustHave`, `MayHave` — what a text may be asked for.
* `Schema.Unlisted` — the texts whose records are objects.
* `Schema.Meets` — what is read of them, with one equivalence for each kind of schema.
-/

namespace CodeQuality
namespace Json

open Reader Container

variable {α β : Type}

/-! ### What is asked for -/

/-- The text denotes a value of which `P` holds. -/
def Means (P : Value → α → Prop) (w : List Char) (a : α) : Prop :=
  ∃ v, Value.read (String.ofList w) = .ok v ∧ P v a

/-- The text denotes null, which stands for nothing, or it is what `P` asks for. -/
def NullOr (P : List Char → α → Prop) (w : List Char) : Option α → Prop
  | none => Value.read (String.ofList w) = .ok .null
  | some a => P w a

/-- The items are documents, and blanks in front of the closing bracket belong to the last one. -/
structure ListText.WellFormed (t : ListText) : Prop extends Spaced t where
  items : ∀ w ∈ t.items, IsDocument w
  no_close : t.items ≠ [] → t.close = []

/-- The text of a list, each item of which is what `P` asks for. -/
def IsList (P : List Char → α → Prop) (w : List Char) (as : List α) : Prop :=
  ∃ t : ListText, t.WellFormed ∧ t.chars = w ∧ List.Forall₂ P t.items as

/-- The text of an object whose members have these names and values with these texts. -/
def IsObject (w : List Char) (ps : List (String × List Char)) : Prop :=
  ∃ o : MembersText, o.WellFormed ∧ o.chars = w ∧ o.Lists ps

/-- The texts of the members with this name. -/
def textsOf (name : String) (ps : List (String × List Char)) : List (List Char) :=
  (ps.filter fun p => p.1 = name).map (·.2)

/-- Just one member has this name, and its text is what `P` asks for. -/
def MustHave (name : String) (P : List Char → α → Prop) (ps : List (String × List Char))
    (a : α) : Prop :=
  ∃ w, textsOf name ps = [w] ∧ P w a

/-- At most one member has this name, and `absent` counts if none has. -/
def MayHave (name : String) (P : List Char → α → Prop) (absent : α)
    (ps : List (String × List Char)) (a : α) : Prop :=
  textsOf name ps = [] ∧ a = absent ∨ MustHave name P ps a

theorem NullOr.iff {P : List Char → α → Prop} {Q : List Char → β → Prop} {f : α → β}
    {w : List Char} (h : ∀ a, P w a ↔ Q w (f a)) {o : Option α} :
    NullOr P w o ↔ NullOr Q w (o.map f) := by
  cases o with
  | none => exact Iff.rfl
  | some a => exact h a

theorem IsList.iff {P : List Char → α → Prop} {Q : List Char → β → Prop} {f : α → β}
    {w : List Char} (h : ∀ w a, P w a ↔ Q w (f a)) {as : List α} :
    IsList P w as ↔ IsList Q w (as.map f) := by
  refine exists_congr fun t => and_congr_right fun _ => and_congr_right fun _ => ?_
  rw [List.forall₂_map_right_iff]
  exact ⟨fun hp => hp.imp fun w a => (h w a).mp, fun hq => hq.imp fun w a => (h w a).mpr⟩

/-! ### Leaves -/

/-- A value that holds no others is a leaf. -/
theorem Document.value_leaf_iff {levels : Nat} {c c' : Cursor} {v : Value}
    (hlist : ∀ vs, v ≠ .list vs) (hobject : ∀ ms, v ≠ .object ms) :
    Document.value levels c = .ok (v, c') ↔ Document.leaf c = .ok (.value v, c') := by
  constructor
  · intro h
    obtain ⟨w, hw, rfl⟩ := Document.value_ok_iff.mp h
    cases Document.stands_of_written hw with
    | leaf hleaf => rwa [Document.canonical_of_leaf hleaf]
    | list => exact absurd rfl (hlist _)
    | object => exact absurd rfl (hobject _)
  · intro h
    cases levels <;> rw [Document.value, bind_of_ok h] <;> rfl

namespace Schema

/-- The schema reads leaves only, and it makes of them what it makes of their values. -/
structure ReadsLeaves (s : Schema) : Prop where
  reader_iff {levels : Nat} {c c' : Cursor} {a : s.Val} : s.reader levels c = .ok (a, c') ↔
    ∃ v, Document.leaf c = .ok (.value v, c') ∧ s.ofValue v = .ok a
  ne_list {vs : List Value} {a : s.Val} : s.ofValue (.list vs) ≠ .ok a
  ne_object {ms : List (String × Value)} {a : s.Val} : s.ofValue (.object ms) ≠ .ok a

theorem text_ok_iff {expected : Expected} {c c' : Cursor} {s : String} :
    Reader.text expected c = .ok (s, c') ↔ Document.leaf c = .ok (.value (.text s), c') := by
  constructor
  · intro h
    obtain ⟨hquote, hbody⟩ := of_text_ok h
    rw [Document.leaf, peekBehindSpace_bind, hquote]
    exact (skip_bind _ _).trans (bind_of_ok hbody)
  · intro h
    obtain ⟨x, hx, hmeets⟩ := Document.meets_of_leaf h
    cases hmeets with
    | text h =>
      rw [Reader.text, peekBehindSpace_bind, hx]
      exact h

theorem readsLeaves_text : Schema.text.ReadsLeaves where
  reader_iff := by
    intro levels c c' s
    refine text_ok_iff.trans ⟨fun h => ⟨_, h, rfl⟩, fun ⟨v, hleaf, hv⟩ => ?_⟩
    obtain rfl : v = .text s := ofValue_text_iff.mp hv
    exact hleaf
  ne_list := nofun
  ne_object := nofun

theorem readsLeaves_flag : Schema.flag.ReadsLeaves where
  reader_iff := by
    intro levels c c' b
    constructor
    · intro h
      obtain ⟨l, d, hleaf, h⟩ := of_bind_ok h
      match l, h with
      | .value (.flag b'), h =>
        obtain ⟨rfl, rfl⟩ := of_pure_ok h
        exact ⟨_, hleaf, rfl⟩
    · rintro ⟨v, hleaf, hv⟩
      obtain rfl : v = .flag b := ofValue_flag_iff.mp hv
      exact bind_of_ok hleaf
  ne_list := nofun
  ne_object := nofun

theorem number_ok_iff {expected : Expected} {convert : Number → Except Cause α} {c c' : Cursor}
    {a : α} : Reader.number expected convert c = .ok (a, c') ↔
      ∃ n, Document.leaf c = .ok (.value (.number n), c') ∧ convert n = .ok a := by
  constructor
  · intro h
    obtain ⟨l, d, hleaf, h⟩ := of_bind_ok h
    match l, h with
    | .value (.number n), h =>
      obtain ⟨hn, rfl⟩ := (Follows.ofExcept (convert n) d).ok_iff.mp h
      exact ⟨n, hleaf, hn⟩
  · rintro ⟨n, hleaf, hn⟩
    rw [Reader.number, bind_of_ok hleaf]
    exact (Follows.ofExcept (convert n) c').ok_iff.mpr ⟨hn, rfl⟩

/-- A schema of numbers reads them and nothing else. -/
theorem readsLeaves_number {s : Schema} {expected : Expected}
    {convert : Number → Except Cause s.Val}
    (hreader : ∀ levels, s.reader levels = Reader.number expected convert)
    (hvalue : ∀ v a, s.ofValue v = .ok a ↔ ∃ n, v = .number n ∧ convert n = .ok a) :
    s.ReadsLeaves where
  reader_iff := by
    intro levels c c' a
    rw [hreader levels, number_ok_iff]
    constructor
    · rintro ⟨n, hleaf, hn⟩
      exact ⟨_, hleaf, (hvalue _ a).mpr ⟨n, rfl, hn⟩⟩
    · rintro ⟨v, hleaf, hv⟩
      obtain ⟨n, rfl, hn⟩ := (hvalue v a).mp hv
      exact ⟨n, hleaf, hn⟩
  ne_list {vs a} h := by
    obtain ⟨n, hn, -⟩ := (hvalue _ a).mp h
    nomatch hn
  ne_object {ms a} h := by
    obtain ⟨n, hn, -⟩ := (hvalue _ a).mp h
    nomatch hn

theorem readsLeaves_count : Schema.count.ReadsLeaves :=
  readsLeaves_number (fun _ => rfl) fun v n => by
    cases v with
    | number m => exact ⟨fun h => ⟨m, rfl, h⟩, fun ⟨_, heq, h⟩ => Value.number.inj heq ▸ h⟩
    | _ => exact ⟨nofun, fun ⟨_, heq, _⟩ => nomatch heq⟩

theorem readsLeaves_signed : Schema.signed.ReadsLeaves :=
  readsLeaves_number (fun _ => rfl) fun v n => by
    cases v with
    | number m => exact ⟨fun h => ⟨m, rfl, h⟩, fun ⟨_, heq, h⟩ => Value.number.inj heq ▸ h⟩
    | _ => exact ⟨nofun, fun ⟨_, heq, _⟩ => nomatch heq⟩

/-- What is read of a leaf is told by its value. -/
theorem ReadsLeaves.readsText_iff {s : Schema} (h : s.ReadsLeaves) {levels : Nat} {w : List Char}
    {a : s.Val} : s.ReadsText levels w a ↔ Means (fun v a => s.ofValue v = .ok a) w a := by
  have hvalue {v : Value} (hv : s.ofValue v = .ok a) {c c' : Cursor} :
      Document.value maxLevels c = .ok (v, c') ↔ Document.leaf c = .ok (.value v, c') :=
    Document.value_leaf_iff (fun vs heq => h.ne_list (heq ▸ hv)) fun ms heq =>
      h.ne_object (heq ▸ hv)
  constructor
  · intro hread
    obtain ⟨c, d, hread, hfinish⟩ := Document.whole_eq_ok_iff.mp hread
    obtain ⟨v, hleaf, hv⟩ := h.reader_iff.mp hread
    exact ⟨v, Document.whole_eq_ok_iff.mpr ⟨c, d, (hvalue hv).mpr hleaf, hfinish⟩, hv⟩
  · rintro ⟨v, hread, hv⟩
    obtain ⟨c, d, hread, hfinish⟩ := Document.whole_eq_ok_iff.mp hread
    exact Document.whole_eq_ok_iff.mpr
      ⟨c, d, h.reader_iff.mpr ⟨v, (hvalue hv).mp hread, hv⟩, hfinish⟩

/-! ### What may be null -/

/-- The schema does not read null. -/
def RefusesNull (s : Schema) : Prop :=
  ∀ levels (c : Cursor) r, (c.dropWhile isSpace).rest.head? = some 'n' → s.reader levels c ≠ .ok r

theorem ReadsLeaves.refusesNull {s : Schema} (h : s.ReadsLeaves)
    (hnull : ∀ a, s.ofValue .null ≠ .ok a) : s.RefusesNull := by
  intro levels c r hhead hr
  obtain ⟨a, c'⟩ := r
  obtain ⟨v, hleaf, hv⟩ := h.reader_iff.mp hr
  obtain ⟨x, hx, hmeets⟩ := Document.meets_of_leaf hleaf
  obtain rfl := Option.some.inj (hx.symm.trans hhead)
  cases hmeets with
  | null => exact hnull a hv
  | number hx => exact absurd hx (by decide)

theorem refusesNull_list (item : Schema) : (Schema.list item).RefusesNull := by
  intro levels c r hhead
  exact list_fails (fun h => nomatch hhead.symm.trans h) r

theorem optional_of_null {inner : Reader α} {c : Cursor}
    (h : (c.dropWhile isSpace).rest.head? = some 'n') : Reader.optional inner c =
      (letters ['u', 'l', 'l'] >>= fun _ => pure none) (c.dropWhile isSpace).tail := by
  rw [Reader.optional, peekBehindSpace_bind, h]
  rfl

theorem optional_none_iff {inner : Reader α} {c c' : Cursor} :
    Reader.optional inner c = .ok (none, c') ↔ Document.leaf c = .ok (.value .null, c') := by
  constructor
  · intro h
    by_cases hhead : (c.dropWhile isSpace).rest.head? = some 'n'
    · rw [optional_of_null hhead] at h
      obtain ⟨⟨⟩, hletters, -⟩ := of_map_ok h
      rw [Document.leaf, peekBehindSpace_bind, hhead]
      exact (skip_bind _ _).trans (bind_of_ok hletters)
    · rw [optional_of_ne hhead] at h
      obtain ⟨a, -, heq⟩ := of_map_ok h
      cases heq
  · intro h
    obtain ⟨x, hx, hmeets⟩ := Document.meets_of_leaf h
    cases hmeets with
    | null hletters =>
      rw [optional_of_null hx]
      exact bind_of_ok hletters

theorem optional_some_iff {inner : Reader α} (h : inner.Regular) {c c' : Cursor}
    (hnull : (c.dropWhile isSpace).rest.head? = some 'n' → ∀ r, inner c ≠ .ok r) {a : α} :
    Reader.optional inner c = .ok (some a, c') ↔ inner c = .ok (a, c') := by
  by_cases hhead : (c.dropWhile isSpace).rest.head? = some 'n'
  · constructor
    · intro hr
      rw [optional_of_null hhead] at hr
      obtain ⟨⟨⟩, -, heq⟩ := of_map_ok hr
      nomatch heq
    · exact fun hr => absurd hr (hnull hhead _)
  · rw [optional_of_ne hhead]
    constructor
    · intro hr
      obtain ⟨a', hr, heq⟩ := of_map_ok hr
      obtain rfl := Option.some.inj heq
      rwa [h.reader_dropWhile] at hr
    · intro hr
      rw [← h.reader_dropWhile] at hr
      exact bind_of_ok hr

/-- What is read by such a schema is not null. -/
theorem RefusesNull.ne_null {s : Schema} (h : s.RefusesNull) {levels : Nat} {w : List Char}
    {a : s.Val} (ha : s.ReadsText levels w a) : Value.read (String.ofList w) ≠ .ok .null := by
  intro hnull
  obtain ⟨c, d, hread, -⟩ := Document.whole_eq_ok_iff.mp hnull
  obtain ⟨c', d', hr, -⟩ := Document.whole_eq_ok_iff.mp ha
  obtain ⟨x, hx, hmeets⟩ :=
    Document.meets_of_leaf ((Document.value_leaf_iff (v := .null) nofun nofun).mp hread)
  cases hmeets with
  | null => exact h _ _ _ hx hr

/-- What may be null is null or what it may be otherwise. -/
theorem readsText_optional_iff {s : Schema} (h : s.RefusesNull) {levels : Nat} {w : List Char}
    {o : Option s.Val} :
    (Schema.optional s).ReadsText levels w o ↔ NullOr (s.ReadsText levels) w o := by
  refine Document.whole_eq_ok_iff.trans ?_
  cases o with
  | none =>
    refine Iff.trans ?_ Document.whole_eq_ok_iff.symm
    refine exists_congr fun c => exists_congr fun d => and_congr_left fun _ => ?_
    exact optional_none_iff.trans (Document.value_leaf_iff (v := .null) nofun nofun).symm
  | some a =>
    refine Iff.trans ?_ Document.whole_eq_ok_iff.symm
    refine exists_congr fun c => exists_congr fun d => and_congr_left fun _ => ?_
    exact optional_some_iff (Schema.regular s levels) fun hhead r => h levels _ r hhead

theorem readsLeaves_date : Schema.date.ReadsLeaves where
  reader_iff := by
    intro levels c c' d
    have hsome {s : String} {e : Cursor} : Reader.optional (Reader.text .text) c = .ok (some s, e) ↔
        Document.leaf c = .ok (.value (.text s), e) := by
      refine (optional_some_iff (regular_text .text) fun hhead r => ?_).trans text_ok_iff
      exact readsLeaves_text.refusesNull nofun levels c r hhead
    rw [reader_date]
    constructor
    · intro h
      obtain ⟨o, e, ho, h⟩ := of_bind_ok h
      cases o with
      | none =>
        obtain ⟨rfl, rfl⟩ := of_pure_ok h
        exact ⟨.null, optional_none_iff.mp ho, rfl⟩
      | some s =>
        obtain ⟨hd, rfl⟩ := standing_ok_iff.mp h
        exact ⟨.text s, hsome.mp ho, hd⟩
    · rintro ⟨v, hleaf, hv⟩
      match v, hv with
      | .null, hv =>
        obtain rfl := Except.ok.inj hv
        exact bind_of_ok (optional_none_iff.mpr hleaf)
      | .text s, hv =>
        rw [bind_of_ok (hsome.mpr hleaf)]
        exact standing_ok_iff.mpr ⟨hv, rfl⟩
  ne_list := nofun
  ne_object := nofun

/-! ### Lists -/

/-- What is read is a document. -/
theorem isDocument_of_readsText {s : Schema} {levels : Nat} {w : List Char} {a : s.Val}
    (h : s.ReadsText levels w a) : IsDocument w := by
  obtain ⟨c, d, hread, hfinish⟩ := Document.whole_eq_ok_iff.mp h
  have hskipped := (Schema.regular s levels).skipped _ _ _ hread
  exact Skipped.whole_value_iff.mp (Document.whole_eq_ok_iff.mpr ⟨c, d, hskipped, hfinish⟩)

theorem readsText_list_iff {item : Schema} {levels : Nat} {w : List Char} {as : List item.Val} :
    (Schema.list item).ReadsText (levels + 1) w as ↔ IsList (item.ReadsText levels) w as := by
  have hvalues := (Schema.regular item levels).readsValues
  constructor
  · intro h
    obtain ⟨t, ht, hno, hchars, has⟩ := list_of_whole hvalues h
    have hitems : List.Forall₂ (item.ReadsText levels) t.items as := by
      rwa [← List.forall₂_eq_eq_eq, List.forall₂_map_left_iff, List.forall₂_map_right_iff] at has
    have hdocuments := (List.forall₂_and_left _ _).mp
      (hitems.imp fun v a ha => (⟨isDocument_of_readsText ha, ha⟩ : IsDocument v ∧ _))
    exact ⟨t, ⟨ht, hdocuments.1, hno⟩, hchars, hitems⟩
  · rintro ⟨t, ht, hchars, hitems⟩
    refine (whole_list_iff hvalues).mpr ⟨t, ht.toSpaced, hchars, ?_⟩
    rwa [← List.forall₂_eq_eq_eq, List.forall₂_map_left_iff, List.forall₂_map_right_iff]

end Schema

/-- There is only one way to put the text of a list together. -/
theorem ListText.WellFormed.eq_of_chars {t t' : ListText} (h : t.WellFormed) (h' : t'.WellFormed)
    (heq : t.chars = t'.chars) : t = t' := by
  obtain ⟨before, ws, close, behind⟩ := t
  obtain ⟨before', ws', close', behind'⟩ := t'
  rw [ListText.chars, ListText.chars, ← List.map_id ws, ← List.map_id ws'] at heq
  obtain ⟨rfl, rfl, rfl, rfl⟩ := splits_items.container_inj h.items h'.items h.close h'.close
    h.no_close h'.no_close h.before h'.before heq
  rfl

/-! ### Records that are objects -/

mutual

/-- Is no record in the text written as a list of its fields? -/
def Schema.Unlisted : Schema → List Char → Prop
  | .optional inner, w => Value.read (String.ofList w) ≠ .ok .null → inner.Unlisted w
  | .list item, w => ∀ t : ListText, t.WellFormed → t.chars = w → ∀ v ∈ t.items, item.Unlisted v
  | .record _ fields, w => (w.dropWhile isSpace).head? ≠ some '[' ∧
    ∀ ps, IsObject w ps → ∀ p ∈ ps, fields.Unlisted p
  | .fork _ _ present _ absent, w => present.Unlisted w ∧ absent.Unlisted w
  | _, _ => True

/-- Is no record written so in the member of the field that covers it? -/
def Fields.Unlisted : Fields → String × List Char → Prop
  | .nil, _ => True
  | .cons label schema rest, p => (label.covers p.1 → schema.Unlisted p.2) ∧ rest.Unlisted p

end

/-- `a` is read of the text, whose records are objects. -/
def Schema.Meets (s : Schema) (levels : Nat) (w : List Char) (a : s.Val) : Prop :=
  s.ReadsText levels w a ∧ s.Unlisted w

theorem IsObject.inj {w : List Char} {ps ps' : List (String × List Char)} (h : IsObject w ps)
    (h' : IsObject w ps') : ps = ps' := by
  obtain ⟨o, ho, rfl, hps⟩ := h
  obtain ⟨o', ho', hchars, hps'⟩ := h'
  obtain rfl := ho'.eq_of_chars ho hchars
  exact hps.inj hps'

theorem Label.finds_and_iff {label : Label} {reads : List Char → α → Prop} {P : List Char → Prop}
    {zero a : α} {ps : List (String × List Char)} :
    label.Finds (fun w a => reads w a ∧ P w) zero ps a ↔
      label.Finds reads zero ps a ∧ ∀ p ∈ ps, P p.2 := by
  match ps with
  | [] => exact (and_iff_left (List.forall_mem_nil _)).symm
  | [p] =>
    exact and_congr_right fun _ =>
      (List.forall_mem_singleton (p := fun q : String × List Char => P q.2)).symm
  | _ :: _ :: _ => exact ⟨False.elim, fun h => h.1.elim⟩

namespace Fields

variable {levels : Nat}

/-- What the fields make of some members in which no record is a list. -/
theorem fits_meets_iff : ∀ {fs : Fields} {ps : List (String × List Char)} {row : fs.Row},
    fs.Fits (·.Meets levels) ps row ↔
      fs.Fits (·.ReadsText levels) ps row ∧ ∀ p ∈ ps, fs.Unlisted p
  | .nil, _, _ => ⟨fun _ => ⟨trivial, fun _ _ => trivial⟩, fun _ => trivial⟩
  | .cons label schema rest, ps, (a, row) => by
    have hown : (∀ p ∈ label.ownTexts ps, schema.Unlisted p.2) ↔
        ∀ p ∈ ps, label.covers p.1 → schema.Unlisted p.2 := by
      simp only [Label.ownTexts, List.mem_filter, and_imp]
    have ih : rest.Fits (·.Meets levels) ps row ↔ _ := fits_meets_iff
    show label.Finds (schema.Meets levels) schema.zero (label.ownTexts ps) a ∧ _ ↔ _
    rw [ih]
    refine (and_congr_left fun _ => Label.finds_and_iff).trans ?_
    constructor
    · rintro ⟨⟨hfinds, hcovered⟩, hfits, hrest⟩
      exact ⟨⟨hfinds, hfits⟩, fun p hp => ⟨hown.mp hcovered p hp, hrest p hp⟩⟩
    · rintro ⟨⟨hfinds, hfits⟩, hps⟩
      exact ⟨⟨hfinds, hown.mpr fun p hp => (hps p hp).1⟩, hfits, fun p hp => (hps p hp).2⟩

end Fields

namespace Schema

variable {levels : Nat} {w : List Char}

theorem ReadsLeaves.meets_iff {s : Schema} (h : s.ReadsLeaves) (hunlisted : s.Unlisted w)
    {P : Value → s.Val → Prop} (hP : ∀ v a, s.ofValue v = .ok a ↔ P v a) {a : s.Val} :
    s.Meets levels w a ↔ Means P w a := by
  refine (and_iff_left hunlisted).trans (h.readsText_iff.trans ?_)
  exact exists_congr fun v => and_congr_right fun _ => hP v a

theorem meets_text_iff {s : String} : Schema.text.Meets levels w s ↔ Means Value.IsText w s :=
  readsLeaves_text.meets_iff trivial fun _ _ => ofValue_text_iff

theorem meets_flag_iff {b : Bool} : Schema.flag.Meets levels w b ↔ Means Value.IsFlag w b :=
  readsLeaves_flag.meets_iff trivial fun _ _ => ofValue_flag_iff

theorem meets_count_iff {n : UInt32} : Schema.count.Meets levels w n ↔ Means Value.IsCount w n :=
  readsLeaves_count.meets_iff trivial fun _ _ => ofValue_count_iff

theorem meets_signed_iff {n : Int32} : Schema.signed.Meets levels w n ↔ Means Value.IsSigned w n :=
  readsLeaves_signed.meets_iff trivial fun _ _ => ofValue_signed_iff

theorem meets_date_iff {d : Option Instant} :
    Schema.date.Meets levels w d ↔ Means Value.IsDate w d :=
  readsLeaves_date.meets_iff trivial fun _ _ => ofValue_date_iff

theorem meets_optional_iff {s : Schema} (h : s.RefusesNull) {o : Option s.Val} :
    (Schema.optional s).Meets levels w o ↔ NullOr (s.Meets levels) w o := by
  refine (and_congr_left fun _ => readsText_optional_iff h).trans ?_
  cases o with
  | none => exact and_iff_left_of_imp fun hnull hne => absurd hnull hne
  | some a =>
    refine and_congr_right fun ha => ⟨fun hunlisted => hunlisted (h.ne_null ha), ?_⟩
    exact fun hunlisted _ => hunlisted

theorem meets_list_iff_items {item : Schema} {as : List item.Val} :
    (Schema.list item).Meets (levels + 1) w as ↔ IsList (item.Meets levels) w as := by
  constructor
  · rintro ⟨hread, hunlisted⟩
    obtain ⟨t, ht, hchars, hitems⟩ := readsText_list_iff.mp hread
    have hboth := (List.forall₂_and_left _ _).mpr ⟨hunlisted t ht hchars, hitems⟩
    exact ⟨t, ht, hchars, hboth.imp fun _ _ => And.symm⟩
  · rintro ⟨t, ht, rfl, hitems⟩
    refine ⟨readsText_list_iff.mpr ⟨t, ht, rfl, hitems.imp fun _ _ => And.left⟩, ?_⟩
    intro t' ht' hchars
    obtain rfl := ht'.eq_of_chars ht hchars
    exact ((List.forall₂_and_left _ _).mp (hitems.imp fun _ _ => And.symm)).1

theorem meets_list_iff {item : Schema} {P : List Char → β → Prop} {f : item.Val → β}
    (h : ∀ w a, item.Meets levels w a ↔ P w (f a)) {as : List item.Val} :
    (Schema.list item).Meets (levels + 1) w as ↔ IsList P w (as.map f) :=
  meets_list_iff_items.trans (IsList.iff h)

/-- A record that is read is written as an object or as a list. -/
theorem head_of_readsText {record : String} {fs : Fields} {row : fs.Row}
    (h : (Schema.record record fs).ReadsText levels w row) :
    (w.dropWhile isSpace).head? = some '\x7b' ∨ (w.dropWhile isSpace).head? = some '[' := by
  obtain ⟨c, d, hread, -⟩ := Document.whole_eq_ok_iff.mp h
  have hrest : ((Cursor.ofString (String.ofList w)).dropWhile isSpace).rest = w.dropWhile isSpace :=
    congrArg (List.dropWhile isSpace) String.toList_ofList
  by_contra hne
  obtain ⟨hobject, hlist⟩ := not_or.mp hne
  exact record_of_ne (hrest ▸ hlist) (hrest ▸ hobject) _ hread

theorem meets_record_iff {record : String} {fs : Fields} (hfs : fs.distinct = true)
    {row : fs.Row} : (Schema.record record fs).Meets (levels + 1) w row ↔
      ∃ ps, IsObject w ps ∧ fs.Fits (·.Meets levels) ps row := by
  constructor
  · rintro ⟨hread, hlist, hmembers⟩
    obtain ⟨o, ps, ho, hchars, hps, hfits⟩ :=
      (readsText_object_iff hfs ((head_of_readsText hread).resolve_right hlist)).mp hread
    have hobject : IsObject w ps := ⟨o, ho, hchars, hps⟩
    exact ⟨ps, hobject, Fields.fits_meets_iff.mpr ⟨hfits, hmembers ps hobject⟩⟩
  · rintro ⟨ps, hobject, hfits⟩
    obtain ⟨hfits, hmembers⟩ := Fields.fits_meets_iff.mp hfits
    refine ⟨?_, ?_, fun ps' hobject' => hobject'.inj hobject ▸ hmembers⟩
    · obtain ⟨o, ho, rfl, hps⟩ := hobject
      exact (ho.read_iff hfs).mpr ⟨ps, hps, hfits⟩
    · obtain ⟨o, ho, rfl, hps⟩ := hobject
      rw [ho.head]
      decide

end Schema

/-! ### Fields -/

theorem Label.finds_iff_texts {label : Label} {reads : List Char → α → Prop} {zero a : α}
    {ps : List (String × List Char)} : label.Finds reads zero ps a ↔
      (ps.map (·.2) = [] ∧ label.required = false ∧ a = zero) ∨
        ∃ w, ps.map (·.2) = [w] ∧ reads w a := by
  match ps with
  | [] =>
    constructor
    · exact fun h => .inl ⟨rfl, h⟩
    · rintro (⟨-, h⟩ | ⟨w, hw, -⟩)
      · exact h
      · nomatch hw
  | [p] =>
    constructor
    · exact fun h => .inr ⟨p.2, rfl, h⟩
    · rintro (⟨h, -⟩ | ⟨w, hw, h⟩)
      · nomatch h
      · obtain rfl : p.2 = w := List.singleton_inj.mp hw
        exact h
  | _ :: _ :: _ =>
    constructor
    · exact False.elim
    · rintro (⟨h, -⟩ | ⟨w, hw, -⟩)
      · nomatch h
      · nomatch hw

theorem Label.map_ownTexts {label : Label} (h : label.alias? = none)
    (ps : List (String × List Char)) : (label.ownTexts ps).map (·.2) = textsOf label.name ps := by
  have hcovers : ∀ p ∈ ps, label.covers p.1 = decide (p.1 = label.name) := by
    intro p _
    rw [covers, h]
    simp [eq_comm]
  rw [textsOf, ownTexts, List.filter_congr hcovers]

section Found

variable {label : Label} {reads : List Char → α → Prop} {P : List Char → β → Prop} {f : α → β}
  {ps : List (String × List Char)} {zero a : α}

/-- A field that has to be there. -/
theorem Label.must_iff (hname : label.alias? = none) (hrequired : label.required = true)
    (h : ∀ w a, reads w a ↔ P w (f a)) :
    label.Finds reads zero (label.ownTexts ps) a ↔ MustHave label.name P ps (f a) := by
  refine Label.finds_iff_texts.trans ?_
  rw [Label.map_ownTexts hname, hrequired]
  constructor
  · rintro (⟨-, hne, -⟩ | ⟨w, hw, ha⟩)
    · nomatch hne
    · exact ⟨w, hw, (h w a).mp ha⟩
  · rintro ⟨w, hw, ha⟩
    exact .inr ⟨w, hw, (h w a).mpr ha⟩

/-- A field that may be absent. -/
theorem Label.may_iff (hname : label.alias? = none) (hrequired : label.required = false)
    (h : ∀ w a, reads w a ↔ P w (f a)) {absent : β} (habsent : a = zero ↔ f a = absent) :
    label.Finds reads zero (label.ownTexts ps) a ↔ MayHave label.name P absent ps (f a) := by
  refine Label.finds_iff_texts.trans ?_
  rw [Label.map_ownTexts hname, hrequired, MayHave, MustHave, habsent]
  refine or_congr (and_congr_right fun _ => and_iff_right rfl) ?_
  exact exists_congr fun w => and_congr_right fun _ => h w a

end Found

section Kinds

variable {levels : Nat} {name : String} {ps : List (String × List Char)}

/-- A field that may be absent or null. -/
theorem Label.may_null_iff {s : Schema} (hs : s.RefusesNull) {P : List Char → β → Prop}
    {f : s.Val → β} (h : ∀ w a, s.Meets levels w a ↔ P w (f a)) {o : Option s.Val} :
    (Label.optional name).Finds ((Schema.optional s).Meets levels) (Schema.optional s).zero
      ((Label.optional name).ownTexts ps) o ↔ MayHave name (NullOr P) none ps (o.map f) := by
  refine Label.may_iff rfl rfl (fun w o => ?_) Option.map_eq_none_iff.symm
  exact (Schema.meets_optional_iff hs).trans (NullOr.iff (h w))

/-- The same of a leaf. -/
theorem Label.may_leaf_iff {s : Schema} (hs : s.RefusesNull) {P : List Char → s.Val → Prop}
    (h : ∀ w a, s.Meets levels w a ↔ P w a) {o : Option s.Val} :
    (Label.optional name).Finds ((Schema.optional s).Meets levels) (Schema.optional s).zero
      ((Label.optional name).ownTexts ps) o ↔ MayHave name (NullOr P) none ps o := by
  refine (Label.may_null_iff (f := id) hs h).trans ?_
  rw [Option.map_id, id]

theorem Label.must_text_iff {a : String} :
    (Label.plain name).Finds (Schema.text.Meets levels) Schema.text.zero
      ((Label.plain name).ownTexts ps) a ↔ MustHave name (Means Value.IsText) ps a :=
  Label.must_iff (f := id) rfl rfl fun _ _ => Schema.meets_text_iff

theorem Label.must_count_iff {a : UInt32} :
    (Label.plain name).Finds (Schema.count.Meets levels) Schema.count.zero
      ((Label.plain name).ownTexts ps) a ↔ MustHave name (Means Value.IsCount) ps a :=
  Label.must_iff (f := id) rfl rfl fun _ _ => Schema.meets_count_iff

theorem Label.may_text_iff {o : Option String} :
    (Label.optional name).Finds ((Schema.optional .text).Meets levels) (Schema.optional .text).zero
      ((Label.optional name).ownTexts ps) o ↔
        MayHave name (NullOr (Means Value.IsText)) none ps o :=
  Label.may_leaf_iff (Schema.readsLeaves_text.refusesNull nofun) fun _ _ => Schema.meets_text_iff

theorem Label.may_flag_iff {o : Option Bool} :
    (Label.optional name).Finds ((Schema.optional .flag).Meets levels) (Schema.optional .flag).zero
      ((Label.optional name).ownTexts ps) o ↔
        MayHave name (NullOr (Means Value.IsFlag)) none ps o :=
  Label.may_leaf_iff (Schema.readsLeaves_flag.refusesNull nofun) fun _ _ => Schema.meets_flag_iff

theorem Label.may_count_iff {o : Option UInt32} :
    (Label.optional name).Finds ((Schema.optional .count).Meets levels)
      (Schema.optional .count).zero ((Label.optional name).ownTexts ps) o ↔
        MayHave name (NullOr (Means Value.IsCount)) none ps o :=
  Label.may_leaf_iff (Schema.readsLeaves_count.refusesNull nofun) fun _ _ => Schema.meets_count_iff

theorem Label.may_signed_iff {o : Option Int32} :
    (Label.optional name).Finds ((Schema.optional .signed).Meets levels)
      (Schema.optional .signed).zero ((Label.optional name).ownTexts ps) o ↔
        MayHave name (NullOr (Means Value.IsSigned)) none ps o :=
  Label.may_leaf_iff (Schema.readsLeaves_signed.refusesNull nofun) fun _ _ =>
    Schema.meets_signed_iff

theorem Label.may_date_iff {o : Option Instant} :
    (Label.optional name).Finds (Schema.date.Meets levels) Schema.date.zero
      ((Label.optional name).ownTexts ps) o ↔ MayHave name (Means Value.IsDate) none ps o := by
  refine Label.may_iff (f := id) rfl rfl (fun _ _ => ?_) ?_
  · exact Schema.meets_date_iff
  · exact Iff.rfl

section Items

variable {item : Schema} {P : List Char → β → Prop} {f : item.Val → β}

/-- A list, which may be absent or null. -/
theorem Label.may_list_iff (h : ∀ w a, item.Meets levels w a ↔ P w (f a))
    {o : Option (List item.Val)} :
    (Label.optional name).Finds ((Schema.optional (.list item)).Meets (levels + 1))
      (Schema.optional (.list item)).zero ((Label.optional name).ownTexts ps) o ↔
        MayHave name (NullOr (IsList P)) none ps (o.map (List.map f)) :=
  Label.may_null_iff (Schema.refusesNull_list item) fun _ _ => Schema.meets_list_iff h

/-- A list that is empty where it is absent, and that must not be null. -/
theorem Label.may_items_iff (h : ∀ w a, item.Meets levels w a ↔ P w (f a)) {as : List item.Val} :
    (Label.defaulted name).Finds ((Schema.list item).Meets (levels + 1)) (Schema.list item).zero
      ((Label.defaulted name).ownTexts ps) as ↔ MayHave name (IsList P) [] ps (as.map f) := by
  refine Label.may_iff (f := List.map f) rfl rfl (fun _ _ => ?_) ?_
  · exact Schema.meets_list_iff h
  · exact List.map_eq_nil_iff.symm

end Items

end Kinds

end Json
end CodeQuality
