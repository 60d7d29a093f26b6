import CodeQuality.Proofs.Json.Direct
import CodeQuality.Proofs.Json.WellFormed

/-!
# What the readers of all schemas have in common

By whatever schema a value is read, what is read depends on nothing but the text of the value,
blanks in front of it do not matter, and whatever is read could have been passed over. A record does
not change this, whether it is read from an object or from a list: each of its members is passed
over or read by the schema of its field, and so is each item of a list.

* `Reader.Regular` — these laws.
* `Container.ReadsRest` — what is read of a member behind its name.
* `Schema.regular` — every schema.
-/

namespace CodeQuality
namespace Json

open Reader Container

variable {α β σ : Type}

/-- The reader reads values, and nothing that could not be passed over. -/
structure Reader.Regular (reader : Reader α) : Prop where
  takes : Takes Stops reader
  passes {blanks : List Char} (hb : Blanks blanks) (cs : List Char) (p : Place) :
    reader ⟨blanks ++ cs, p⟩ = reader ⟨cs, p.past blanks⟩
  skipped : Skipped.value.Passes reader

namespace Reader

variable {reader : Reader α} {f : α → Reader β}

theorem Regular.readsValues (h : reader.Regular) : reader.ReadsValues where
  takes := h.takes
  passes := h.passes
  opens {cs p r} hr := by
    -- A bracket that closes a list is no leaf.
    have hscans := Skipped.value_ok_iff.mp (h.skipped _ r.1 r.2 hr)
    cases hscans with
    | leaf hleaf => exact absurd hleaf (failAhead_ne_ok .valueExpected _ _)
    | container hleaf => exact absurd hleaf (failAhead_ne_ok .valueExpected _ _)

theorem Regular.reader_dropWhile (h : reader.Regular) (c : Cursor) :
    reader (c.dropWhile isSpace) = reader c := by
  obtain ⟨cs, p⟩ := c
  have hblanks : Blanks (cs.takeWhile isSpace) :=
    fun x hx => List.all_eq_true.mp List.all_takeWhile x hx
  have hpasses := h.passes hblanks (cs.dropWhile isSpace) p
  rw [List.takeWhile_append_dropWhile] at hpasses
  exact hpasses.symm

/-- The reader gives something without moving on. -/
def Stays (reader : Reader α) : Prop := ∀ c a c', reader c = .ok (a, c') → c' = c

theorem Stays.pure (a : α) : (Pure.pure a : Reader α).Stays := fun _ _ _ h => (of_pure_ok h).2

theorem Stays.of_fails (h : ∀ c r, reader c ≠ .ok r) : reader.Stays :=
  fun c a c' hr => absurd hr (h c (a, c'))

theorem Stays.standing (x : Except Cause α) : (Reader.standing x).Stays :=
  fun _ _ _ h => (standing_ok_iff.mp h).2.symm

theorem Stays.ofExcept (x : Except Cause α) : (Reader.ofExcept x).Stays := by
  cases x with
  | ok a => exact Stays.pure a
  | error cause => exact Stays.of_fails (failHere_ne_ok cause)

/-- Something may be made of a value that has been read. -/
theorem Regular.bind (h : reader.Regular) (hf : ∀ a, Local Stops (f a))
    (hstays : ∀ a, (f a).Stays) :
    (reader >>= f).Regular where
  takes := h.takes.bind hf
  passes := (h.readsValues.bind hf).passes
  skipped := by
    intro c b c' hr
    obtain ⟨a, d, ha, hb⟩ := of_bind_ok hr
    obtain rfl := hstays a _ _ _ hb
    exact h.skipped _ _ _ ha

/-- A reader that never reads anything is as good as any. -/
theorem Regular.behind {k : Option Char → Reader α}
    (htakes : ∀ o, (∀ x ∈ o, isSpace x = false) → TakesAt o Stops (k o))
    (hskipped : ∀ c a c', k (c.dropWhile isSpace).rest.head? (c.dropWhile isSpace) = .ok (a, c') →
      Skipped.Scans none c c') : (peekBehindSpace >>= k).Regular where
  takes := Takes.peekBehindSpace htakes
  passes := peekBehindSpace_bind_blanks
  skipped c a c' h := Skipped.value_ok_iff.mpr (hskipped c a c' h)

end Reader

/-! ### Leaves -/

namespace Schema

theorem regular_any (levels : Nat) : (Document.value levels).Regular where
  takes := Document.takes_value levels
  passes := (Document.readsValues_value levels).passes
  skipped := Skipped.passes_value levels

/-- What is made of a leaf. -/
theorem regular_leaf {k : Document.Leaf → Reader α} (hlocal : ∀ v, Local Stops (k (.value v)))
    (hstays : ∀ v, (k (.value v)).Stays) (hlist : ∀ c r, k .list c ≠ .ok r)
    (hobject : ∀ c r, k .object c ≠ .ok r) : (Document.leaf >>= k).Regular where
  takes := Document.takes_leaf_bind hlocal (fun c a c' _ h => absurd h (hlist c (a, c')))
    fun c a c' _ h => absurd h (hobject c (a, c'))
  passes hb cs p := by
    rw [Document.leaf, bind_assoc]
    exact peekBehindSpace_bind_blanks hb cs p
  skipped := by
    intro c a c' h
    obtain ⟨l, d, hleaf, h⟩ := of_bind_ok h
    cases l with
    | value v =>
      obtain rfl := hstays v _ _ _ h
      exact Skipped.value_ok_iff.mpr (.leaf (Skipped.leaf_of_leaf hleaf))
    | list => exact absurd h (hlist _ _)
    | object => exact absurd h (hobject _ _)

theorem of_text_ok {expected : Expected} {c c' : Cursor} {s : String}
    (h : Reader.text expected c = .ok (s, c')) :
    (c.dropWhile isSpace).rest.head? = some '"' ∧
      Quoted.body (c.dropWhile isSpace).tail = .ok (s, c') := by
  rw [Reader.text, peekBehindSpace_bind] at h
  generalize (c.dropWhile isSpace).rest.head? = o at h ⊢
  split at h
  · exact ⟨rfl, h⟩
  · exact absurd h (unexpected_ne_ok _ _ _)

theorem regular_text (expected : Expected) : (Reader.text expected).Regular := by
  refine Regular.behind (fun o _ => ?_) fun c s c' h => ?_
  · split
    · exact TakesAt.behind Quoted.takes_body.anywhere.local
    · exact fun c a c' _ h => absurd h (unexpected_ne_ok _ _ _)
  · obtain ⟨hquote, hbody⟩ := of_text_ok h
    exact Skipped.scans_of_body hquote hbody

theorem regular_flag : Reader.flag.Regular := by
  refine regular_leaf (fun v => ?_) (fun v => ?_) (failHere_ne_ok _) (failHere_ne_ok _)
  · cases v with
    | flag b => exact Local.pure b
    | _ => exact fun _ => (TakesAt.failHere _).localAt
  · cases v with
    | flag b => exact Stays.pure b
    | _ => exact Stays.of_fails (failHere_ne_ok _)

theorem local_ofExcept (x : Except Cause α) : Local Anywhere (ofExcept x) := by
  cases x with
  | ok a => exact Local.pure a
  | error cause => exact fun _ => (TakesAt.failHere cause).localAt

theorem regular_number (expected : Expected) (convert : Number → Except Cause α) :
    (Reader.number expected convert).Regular := by
  refine regular_leaf (fun v => ?_) (fun v => ?_) (failHere_ne_ok _) (failHere_ne_ok _)
  · cases v with
    | number n => exact (local_ofExcept (convert n)).anywhere
    | _ => exact fun _ => (TakesAt.failHere _).localAt
  · cases v with
    | number n => exact Stays.ofExcept (convert n)
    | _ => exact Stays.of_fails (failHere_ne_ok _)

theorem regular_optional {inner : Reader α} (h : inner.Regular) :
    (Reader.optional inner).Regular := by
  refine Regular.behind (fun o _ => ?_) fun c a c' hr => ?_
  · split
    · exact TakesAt.behind ((local_letters _).anywhere.bind fun _ => Local.pure _)
    · exact h.takes.bind (fun a => Local.pure (some a)) o
  · generalize ho : (c.dropWhile isSpace).rest.head? = o at hr
    split at hr
    · rw [skip_bind] at hr
      obtain ⟨⟨⟩, hletters, -⟩ := of_map_ok hr
      exact Skipped.scans_of_null ho hletters
    · obtain ⟨b, hb, -⟩ := of_map_ok hr
      exact Skipped.scans_dropWhile_iff.mp (Skipped.value_ok_iff.mp (h.skipped _ _ _ hb))

theorem regular_date (levels : Nat) : (Schema.date.reader levels).Regular := by
  rw [reader_date]
  refine (regular_optional (regular_text .text)).bind (fun s? => ?_) fun s? => ?_
  · cases s? with
    | none => exact Local.pure none
    | some s => exact (local_standing _).anywhere
  · cases s? with
    | none => exact Stays.pure none
    | some s => exact Stays.standing _

/-! ### Lists and tags -/

/-- What stands behind a bracket is read only if one more container may be opened. -/
theorem takesAt_opening {x : Char} {levels : Nat} {inside : Nat → Reader α}
    (h : ∀ levels, Local Stops (inside levels)) :
    TakesAt (some x) Stops (opening levels inside) := by
  cases levels with
  | zero => exact TakesAt.failAhead _
  | succ levels => exact TakesAt.behind (h levels)

theorem of_opening_ok {levels : Nat} {inside : Nat → Reader α} {c c' : Cursor} {a : α}
    (h : opening levels inside c = .ok (a, c')) :
    ∃ l d, levels = l + 1 ∧ skip c = .ok ((), d) ∧ inside l d = .ok (a, c') := by
  cases levels with
  | zero => cases h
  | succ levels =>
    obtain ⟨⟨⟩, d, hskip, h⟩ := of_bind_ok h
    exact ⟨levels, d, rfl, hskip, h⟩

theorem regular_list {item : Schema} (h : ∀ levels, (item.reader levels).Regular) (levels : Nat) :
    ((Schema.list item).reader levels).Regular := by
  rw [reader_list_eq]
  refine Regular.behind (fun o _ => ?_) fun c as c' hr => ?_
  · split
    · exact TakesAt.failHere _
    · refine takesAt_opening fun levels => (Takes.settled ?_ _).local
      refine (local_listBody (h levels).takes).takes fun as => ?_
      exact takes_closeList.anywhere.bind fun _ => Local.pure _
    · exact fun _ _ _ _ hr => absurd hr (unexpected_ne_ok _ _ _)
  · generalize ho : (c.dropWhile isSpace).rest.head? = o at hr
    split at hr
    · cases hr
    · obtain ⟨l, d, -, hskip, hr⟩ := of_opening_ok hr
      obtain ⟨as', e, hbody, hr⟩ := of_bind_ok (of_settled_ok hr)
      obtain ⟨⟨⟩, f, hclose, hr⟩ := of_bind_ok hr
      obtain ⟨-, rfl⟩ := of_pure_ok hr
      exact Skipped.scans_of_bracket .list ho hskip
        (Skipped.scans_of_listBody (h l).skipped hbody hclose)
    · exact absurd hr (unexpected_ne_ok _ _ _)

/-- A null. -/
theorem regular_nothing : Reader.nothing.Regular := by
  refine Regular.behind (fun o _ => ?_) fun c u c' hr => ?_
  · split
    · exact TakesAt.failHere _
    · exact TakesAt.behind (local_letters _).anywhere
    · exact fun _ _ _ _ hr => absurd hr (unexpected_ne_ok _ _ _)
  · generalize ho : (c.dropWhile isSpace).rest.head? = o at hr
    split at hr
    · cases hr
    · exact Skipped.scans_of_null ho hr
    · exact absurd hr (unexpected_ne_ok _ _ _)

theorem local_tagInside (known : List String) : Local Stops (tagInside known) := by
  refine (regular_text .tagName).takes.local.bind fun name => ?_
  refine takes_colon.anywhere.local.bind fun _ => regular_nothing.takes.local.bind fun _ => ?_
  refine (Takes.peekBehindSpace fun o ho => ?_).local
  split
  · exact TakesAt.behind (Local.pure _)
  · exact TakesAt.failHere _
  · exact TakesAt.failHere _

/-- The only member of a tag is passed over as that of any object. -/
theorem scans_of_tagInside {known : List String} {c c' : Cursor} {t : Option (Fin known.length)}
    (h : tagInside known c = .ok (t, c')) : Skipped.Scans (some (.object, true)) c c' := by
  obtain ⟨name, d, hname, h⟩ := of_bind_ok h
  obtain ⟨⟨⟩, e, hcolon, h⟩ := of_bind_ok h
  obtain ⟨⟨⟩, f, hnull, h⟩ := of_bind_ok h
  obtain ⟨hquote, hbody⟩ := of_text_ok hname
  have hhere := Cursor.dropWhile_dropWhile isSpace c
  have hlead : Skipped.Frame.object.lead (c.dropWhile isSpace) = .ok ((), e) :=
    Skipped.lead_of_body (hhere.symm ▸ hquote) (hhere.symm ▸ hbody) hcolon
  have hvalue := Skipped.value_ok_iff.mp (regular_nothing.skipped _ _ _ hnull)
  rw [peekBehindSpace_bind] at h
  generalize ho : (f.dropWhile isSpace).rest.head? = o at h
  split at h
  · obtain ⟨-, rfl⟩ := of_pure_ok h
    exact .first hquote (by decide) hlead hvalue (.close ho)
  · cases h
  · cases h

theorem regular_tag (known : List String) (levels : Nat) : (Reader.tag known levels).Regular := by
  refine Regular.behind (fun o _ => ?_) fun c t c' hr => ?_
  · split
    · exact TakesAt.failHere _
    · exact TakesAt.behind (Quoted.takes_body.anywhere.local.bind fun _ => Local.pure _)
    · exact takesAt_opening fun _ => local_tagInside known
    · exact TakesAt.failAhead _
  · generalize ho : (c.dropWhile isSpace).rest.head? = o at hr
    split at hr
    · cases hr
    · rw [skip_bind] at hr
      obtain ⟨name, hbody, -⟩ := of_map_ok hr
      exact Skipped.scans_of_body ho hbody
    · obtain ⟨l, d, -, hskip, hr⟩ := of_opening_ok hr
      exact Skipped.scans_of_bracket .object ho hskip (scans_of_tagInside hr)
    · cases hr

end Schema

/-! ### Records -/

/-- What the schema makes of a text that is a document of its own. -/
abbrev Schema.ReadsText (s : Schema) (levels : Nat) (cs : List Char) (a : s.Val) : Prop :=
  Document.whole (s.reader levels) (String.ofList cs) = .ok a

/-- What a member with this name makes of the slots, if its value has this text. A member that no
field covers must be a document. -/
def Fields.Stores (levels : Nat) : (fs : Fields) → (name : String) → fs.Slots → List Char →
    fs.Slots → Prop
  | .nil, _, slots, cs, slots' => IsDocument cs ∧ slots = slots'
  | .cons label schema rest, name, (slot, slots), cs, slots' =>
    if label.covers name then
      slot = none ∧ ∃ a, schema.ReadsText levels cs a ∧ slotsCons label (some a) slots = slots'
    else ∃ later, rest.Stores levels name slots cs later ∧ slotsCons label slot later = slots'

namespace Container

/-- What is read of a member behind its name is a colon and a value, and `stores` tells what is made
of the text of that value. -/
inductive ReadsRest (rest : Reader σ) (stores : List Char → σ → Prop) : Prop where
  | fails (h : ∀ c r, rest c ≠ .ok r) (hstores : ∀ cs s, ¬ stores cs s)
  | reads {γ : Type} {value : Reader γ} {f : γ → σ} (htakes : Takes Stops value)
    (hskipped : Skipped.value.Passes value)
    (hrest : rest = colon >>= fun _ => value >>= fun x => pure (f x))
    (hstores : ∀ cs s, stores cs s ↔ ∃ x, Document.whole value (String.ofList cs) = .ok x ∧ f x = s)

variable {rest : Reader σ} {stores : List Char → σ → Prop}

theorem ReadsRest.local (h : ReadsRest rest stores) : Local Stops rest := by
  cases h with
  | fails h => exact fun _ c s c' _ hr => absurd hr (h c (s, c'))
  | reads htakes _ hrest =>
    rw [hrest]
    exact takes_colon.anywhere.local.bind fun _ => htakes.local.bind fun _ => Local.pure _

/-- The value of a member is passed over. -/
theorem ReadsRest.skipped (h : ReadsRest rest stores) {c c' : Cursor} {s : σ}
    (hr : rest c = .ok (s, c')) :
    ∃ d, colon c = .ok ((), d) ∧ Skipped.Scans none d c' := by
  cases h with
  | fails h => exact absurd hr (h _ _)
  | reads _ hskipped hrest =>
    rw [hrest] at hr
    obtain ⟨⟨⟩, d, hcolon, hr⟩ := of_bind_ok hr
    obtain ⟨x, hx, -⟩ := of_map_ok hr
    exact ⟨d, hcolon, Skipped.value_ok_iff.mp (hskipped _ _ _ hx)⟩

/-- Whether another part comes depends on nothing but what comes. -/
theorem Separates.local {more : Bool → Reader Bool} {opens : Char → Prop} {close : Char}
    (h : Separates more opens close) (first : Bool) : Local Nowhere (more first) := by
  intro o c another c' _ hr
  -- What goes on in the same way goes on with the same character.
  have hsame {used : List Char} {x : Char} (hx : c'.rest.head? = some x)
      (hreads : ∀ rest, (more first).Reads used (x :: rest) another) :
      ∀ rest : List Char, rest.head? = c'.rest.head? ∨ Nowhere rest →
        (more first).Reads used rest another := by
    rintro rest (hrest | hrest)
    · obtain ⟨rest, rfl⟩ := List.head?_eq_some_iff.mp (hrest.trans hx)
      exact hreads rest
    · exact hrest.elim
  cases another with
  | false =>
    obtain ⟨blanks, hb, htext, hend⟩ := h.of_end hr
    exact ⟨blanks, htext, hsame hend (h.ends first hb)⟩
  | true =>
    cases first with
    | true =>
      obtain ⟨blanks, x, hb, htext, hx, hopens⟩ := h.of_begin hr
      exact ⟨blanks, htext, hsame hx (h.begins hb hopens)⟩
    | false =>
      obtain ⟨blanks, lead, x, hb, hl, htext, hx, hopens⟩ := h.of_goesOn hr
      refine ⟨blanks ++ ',' :: lead, ?_, hsame hx (h.goesOn hb hl hopens)⟩
      rw [htext, List.append_assoc]
      rfl

end Container

namespace Fields

variable {label : Label} {schema : Schema} {rest : Fields}

/-- A member that no field covers is passed over. -/
theorem readsRest_nil (levels : Nat) (name : String) (slots : Fields.nil.Slots) :
    ReadsRest (Fields.nil.memberStep levels name slots)
      (Fields.nil.Stores levels name slots) := by
  refine .reads (f := fun _ => slots) Skipped.takes_value (fun _ _ _ h => h) rfl fun cs slots' => ?_
  show IsDocument cs ∧ slots = slots' ↔ _
  rw [← Skipped.whole_value_iff]
  exact ⟨fun h => ⟨(), h⟩, fun ⟨_, h⟩ => h⟩

section Step

variable {levels : Nat} {name : String} {slot : Option schema.Val} {slots : rest.Slots}

theorem stores_of_covers {w : List Char} {s : _} (h : label.covers name = true) :
    (Fields.cons label schema rest).Stores levels name (slotsCons label slot slots) w s ↔
      slot = none ∧ ∃ a, schema.ReadsText levels w a ∧ slotsCons label (some a) slots = s := by
  show (if label.covers name then _ else _) ↔ _
  rw [if_pos h]

theorem stores_of_not_covers {w : List Char} {s : _} (h : label.covers name = false) :
    (Fields.cons label schema rest).Stores levels name (slotsCons label slot slots) w s ↔
      ∃ later, rest.Stores levels name slots w later ∧ slotsCons label slot later = s := by
  show (if label.covers name then _ else _) ↔ _
  rw [if_neg (by rw [h]; decide)]

/-- A member that the field covers is read by it, but for one that repeats it. -/
theorem readsRest_of_covers (hschema : (schema.reader levels).Regular)
    (hcovers : label.covers name = true) :
    ReadsRest ((Fields.cons label schema rest).memberStep levels name (slotsCons label slot slots))
      ((Fields.cons label schema rest).Stores levels name (slotsCons label slot slots)) := by
  have hreader : (Fields.cons label schema rest).memberStep levels name
      (slotsCons label slot slots) = _ := memberReader_cons
  rw [hcovers, if_pos rfl] at hreader
  cases slot with
  | some a =>
    refine .fails (fun c r hr => ?_) fun cs slots' h => nomatch ((stores_of_covers hcovers).mp h).1
    exact fail_ne_ok _ _ _ (hreader ▸ hr)
  | none =>
    refine .reads (f := fun a => slotsCons label (some a) slots) hschema.takes hschema.skipped
      hreader fun cs slots' => (stores_of_covers hcovers).trans ?_
    exact ⟨And.right, fun h => ⟨rfl, h⟩⟩

/-- A member that the field does not cover goes to the fields behind. -/
theorem readsRest_of_not_covers (hcovers : label.covers name = false)
    (hrest : ReadsRest (rest.memberStep levels name slots) (rest.Stores levels name slots)) :
    ReadsRest ((Fields.cons label schema rest).memberStep levels name (slotsCons label slot slots))
      ((Fields.cons label schema rest).Stores levels name (slotsCons label slot slots)) := by
  have hreader : (Fields.cons label schema rest).memberStep levels name
      (slotsCons label slot slots) = _ := memberReader_cons
  rw [hcovers, if_neg Bool.false_ne_true] at hreader
  cases hrest with
  | fails h hnone =>
    refine .fails (fun c r hr => ?_) fun cs slots' hs => ?_
    · rw [hreader] at hr
      obtain ⟨_, _, hr, -⟩ := of_bind_ok hr
      exact h _ _ hr
    · obtain ⟨later, hlater, -⟩ := (stores_of_not_covers hcovers).mp hs
      exact hnone _ _ hlater
  | @reads _ value f htakes hskipped hstep hlater =>
    have hstep : rest.memberReader levels name slots = _ := hstep
    rw [hstep] at hreader
    simp only [bind_assoc, pure_bind] at hreader
    refine .reads (f := fun x => slotsCons label slot (f x)) htakes hskipped hreader
      fun cs slots' => (stores_of_not_covers hcovers).trans ?_
    constructor
    · rintro ⟨later, h, rfl⟩
      obtain ⟨x, hx, rfl⟩ := (hlater cs later).mp h
      exact ⟨x, hx, rfl⟩
    · rintro ⟨x, hx, rfl⟩
      exact ⟨f x, (hlater cs _).mpr ⟨x, hx, rfl⟩, rfl⟩

end Step

theorem readsRest_cons {levels : Nat} (hschema : (schema.reader levels).Regular)
    (hrest : ∀ name slots, ReadsRest (rest.memberStep levels name slots)
      (rest.Stores levels name slots)) (name : String)
    (slots : (Fields.cons label schema rest).Slots) :
    ReadsRest ((Fields.cons label schema rest).memberStep levels name slots)
      ((Fields.cons label schema rest).Stores levels name slots) := by
  obtain ⟨slot, slots⟩ := slots
  cases hcovers : label.covers name with
  | true => exact readsRest_of_covers hschema hcovers
  | false => exact readsRest_of_not_covers hcovers (hrest name slots)

/-- What the fields read off a list depends on nothing but what comes, and could have been passed
over. -/
structure RegularRow (fs : Fields) (levels : Nat) : Prop where
  localRow (name : String) (total index : Nat) (first : Bool) :
    Local Nowhere (fs.rowReader levels name total index first)
  skipped {name : String} {total index : Nat} {first : Bool} {c d c' : Cursor} {row : fs.Row}
    (h : fs.rowReader levels name total index first c = .ok (row, d))
    (hclose : closeList d = .ok ((), c')) : Skipped.Scans (some (.list, first)) c c'

theorem regularRow_nil (levels : Nat) : Fields.nil.RegularRow levels where
  localRow _ _ _ _ := Local.pure ()
  skipped h hclose := by
    obtain ⟨-, rfl⟩ := of_pure_ok h
    obtain ⟨hend, rfl⟩ := of_closeList_ok hclose
    exact .close hend

theorem regularRow_cons {levels : Nat} (hschema : (schema.reader levels).Regular)
    (hrest : rest.RegularRow levels) : (Fields.cons label schema rest).RegularRow levels where
  localRow name total index first := by
    rw [rowReader_cons]
    refine (separates_hasItem.local first).bind fun another => ?_
    split
    · refine Local.bind (fun o => (hschema.takes.local o).mono fun _ h => h.elim) fun a => ?_
      exact (hrest.localRow name total (index + 1) false).bind fun row => Local.pure _
    · split
      · exact fun _ => (TakesAt.fail _).localAt
      · exact (hrest.localRow name total (index + 1) first).bind fun row => Local.pure _
  skipped {name total index first c d c' row} h hclose := by
    rw [rowReader_cons] at h
    obtain ⟨another, e, hanother, h⟩ := of_bind_ok h
    cases another with
    | false =>
      obtain ⟨rfl, -⟩ := walks_hasItem.of_end hanother
      rw [if_neg Bool.false_ne_true] at h
      split at h
      · exact absurd h (fail_ne_ok _ _ _)
      · obtain ⟨row, hrow, -⟩ := of_map_ok h
        exact Skipped.scans_of_dropWhile (hrest.skipped hrow hclose)
    | true =>
      rw [if_pos rfl] at h
      obtain ⟨a, f, ha, hlater⟩ := of_bind_ok h
      obtain ⟨row, hrow, -⟩ := of_map_ok hlater
      have hvalue := Skipped.value_ok_iff.mp (hschema.skipped _ _ _ ha)
      have hlater := hrest.skipped hrow hclose
      cases first with
      | true =>
        obtain ⟨rfl, x, hx, hopens⟩ := walks_hasItem.of_begin hanother
        exact .first hx hopens.2 rfl hvalue hlater
      | false =>
        obtain ⟨hcomma, rfl, -⟩ := walks_hasItem.of_goesOn hanother
        exact .next hcomma rfl (Skipped.scans_dropWhile_iff.mp hvalue) hlater

end Fields

namespace Schema

theorem regular_record {fs : Fields} (record : String)
    (hmembers : ∀ levels name slots, ReadsRest (fs.memberStep levels name slots)
      (fs.Stores levels name slots)) (hrow : ∀ levels, fs.RegularRow levels) (levels : Nat) :
    ((Schema.record record fs).reader levels).Regular := by
  rw [reader_record_eq]
  refine Regular.behind (fun o _ => ?_) fun c row c' hr => ?_
  · split
    · exact TakesAt.failHere _
    · refine takesAt_opening fun levels => (Takes.settled ?_ _).local
      refine (local_objectBody (fun name slots => (hmembers levels name slots).local) _).takes
        fun slots => (local_standing _).takes fun row => ?_
      exact takes_closeObject.anywhere.bind fun _ => Local.pure _
    · refine takesAt_opening fun levels => (Takes.settled ?_ _).local
      refine ((hrow levels).localRow _ _ _ _).takes fun row => ?_
      exact takes_closeList.anywhere.bind fun _ => Local.pure _
    · exact fun _ _ _ _ hr => absurd hr (unexpected_ne_ok _ _ _)
  · generalize ho : (c.dropWhile isSpace).rest.head? = o at hr
    split at hr
    · cases hr
    · obtain ⟨l, d, -, hskip, hr⟩ := of_opening_ok hr
      obtain ⟨slots, e, hbody, hr⟩ := of_bind_ok (of_settled_ok hr)
      obtain ⟨row', f, hstanding, hr⟩ := of_bind_ok hr
      obtain ⟨-, rfl⟩ := standing_ok_iff.mp hstanding
      obtain ⟨⟨⟩, g, hclose, hr⟩ := of_bind_ok hr
      obtain ⟨-, rfl⟩ := of_pure_ok hr
      exact Skipped.scans_of_bracket .object ho hskip
        (Skipped.scans_of_objectBody (fun hstep => (hmembers l _ _).skipped hstep) hbody hclose)
    · obtain ⟨l, d, -, hskip, hr⟩ := of_opening_ok hr
      obtain ⟨row', e, hbody, hr⟩ := of_bind_ok (of_settled_ok hr)
      obtain ⟨⟨⟩, g, hclose, hr⟩ := of_bind_ok hr
      obtain ⟨-, rfl⟩ := of_pure_ok hr
      exact Skipped.scans_of_bracket .list ho hskip ((hrow l).skipped hbody hclose)
    · exact absurd hr (unexpected_ne_ok _ _ _)

theorem regular_fork (member presentNoun : String) (present : Schema) (absentNoun : String)
    (absent : Schema) (levels : Nat) :
    ((Schema.fork member presentNoun present absentNoun absent).reader levels).Regular := by
  rw [reader_fork]
  exact (regular_any levels).bind (fun _ => (local_standing _).anywhere) fun _ => Stays.standing _

end Schema

/-! ### Every schema -/

mutual

/-- Every schema reads values, and nothing that could not be passed over. -/
theorem Schema.regular : ∀ (s : Schema) (levels : Nat), (s.reader levels).Regular
  | .any, levels => Schema.regular_any levels
  | .text, _ => Schema.regular_text .text
  | .flag, _ => Schema.regular_flag
  | .count, _ => Schema.regular_number .count countOf
  | .signed, _ => Schema.regular_number .signed signedOf
  | .date, levels => Schema.regular_date levels
  | .tag known _, levels => Schema.regular_tag known levels
  | .optional inner, levels => Schema.regular_optional (Schema.regular inner levels)
  | .list item, levels => Schema.regular_list (Schema.regular item) levels
  | .record name fields, levels =>
    Schema.regular_record name (Fields.readsRest fields) (Fields.regularRow fields) levels
  | .fork member presentNoun present absentNoun absent, levels =>
    Schema.regular_fork member presentNoun present absentNoun absent levels

theorem Fields.readsRest : ∀ (fs : Fields) (levels : Nat) (name : String) (slots : fs.Slots),
    ReadsRest (fs.memberStep levels name slots) (fs.Stores levels name slots)
  | .nil, levels, name, slots => Fields.readsRest_nil levels name slots
  | .cons _ schema rest, levels, name, slots =>
    Fields.readsRest_cons (Schema.regular schema levels) (Fields.readsRest rest levels) name slots

theorem Fields.regularRow : ∀ (fs : Fields) (levels : Nat), fs.RegularRow levels
  | .nil, levels => Fields.regularRow_nil levels
  | .cons _ schema rest, levels =>
    Fields.regularRow_cons (Schema.regular schema levels) (Fields.regularRow rest levels)

end

end Json
end CodeQuality
