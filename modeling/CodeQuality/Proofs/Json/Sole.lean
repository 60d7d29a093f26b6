import CodeQuality.Proofs.Json.Cut
import CodeQuality.Proofs.Json.Schemas

/-!
# Lists and objects as texts

Which documents are lists, and which are objects with a certain member, is told here by their texts:
what stands between the brackets is put together of items or members, each of which is a document of
its own. A record with one field reads just the objects that have one member of that name, whatever
other members stand in front of it and behind it.

* `ListText`, `ObjectText` — texts that are put together.
* `Schema.whole_list_iff`, `Schema.whole_sole`, `Schema.object_of_whole` — what is read.
-/

namespace CodeQuality
namespace Json

open Reader Container

/-- The text of a list. -/
structure ListText where
  before : List Char
  items : List (List Char)
  /-- in front of the closing bracket -/
  close : List Char
  behind : List Char

namespace ListText

def chars (t : ListText) : List Char :=
  t.before ++ '[' :: (Text.join ',' t.items ++ t.close ++ ']' :: t.behind)

/-- There is nothing but blanks around the items. -/
structure Spaced (t : ListText) : Prop where
  before : Blanks t.before
  close : Blanks t.close
  behind : Blanks t.behind

end ListText

/-- The text of a member of an object: its name, and its value behind the colon. -/
structure MemberText where
  label : List Char
  value : List Char

namespace MemberText

def chars (m : MemberText) : List Char := m.label ++ ':' :: m.value

/-- Does the label denote this name? -/
def Names (m : MemberText) (name : String) : Prop :=
  Value.read (String.ofList m.label) = .ok (.text name)

/-- Is this a well-formed member that has another name? -/
def IsOther (name : String) (m : MemberText) : Prop :=
  (∃ other, other ≠ name ∧ m.Names other) ∧
    Document.whole Skipped.value (String.ofList m.value) = .ok ()

end MemberText

/-- The text of an object, of which one member is singled out. -/
structure ObjectText where
  before : List Char
  front : List MemberText
  member : MemberText
  back : List MemberText
  /-- in front of the closing brace -/
  close : List Char
  behind : List Char

namespace ObjectText

def members (o : ObjectText) : List MemberText := o.front ++ o.member :: o.back

def chars (o : ObjectText) : List Char :=
  o.before ++ '\x7b' :: (Text.join ',' (o.members.map MemberText.chars) ++ o.close ++
    '\x7d' :: o.behind)

/-- Only the member that is singled out has this name, and there is nothing but blanks around the
members. -/
structure HasSole (o : ObjectText) (name : String) : Prop where
  before : Blanks o.before
  front : ∀ m ∈ o.front, m.IsOther name
  member : o.member.Names name
  back : ∀ m ∈ o.back, m.IsOther name
  close : Blanks o.close
  behind : Blanks o.behind

end ObjectText

/-! ### Lists -/

section List

variable {α : Type} {item : Reader α}

theorem Container.chain_items_iff (h : item.ReadsValues) {ws : List (List Char)}
    {read read' : List α} :
    Chain OpensItem (nextItem item) ws read read' ↔
      ∃ as : List α, read' = as.reverse ++ read ∧
        ws.map (fun w => Document.whole item (String.ofList w)) = as.map .ok := by
  -- Each part is an item, which is read as a document of its own and put in front of the others.
  have hpart (read : List α) : (nextItem item read).ReadsValues :=
    h.bind fun a => Local.pure (a :: read)
  have hwhole (read : List α) (w : List Char) (s : List α) :
      (nextItem item read).TakesUp OpensItem w s ↔
        ∃ a, Document.whole item (String.ofList w) = .ok a ∧ a :: read = s := by
    refine (hpart read).takesUp_iff.trans ?_
    refine (whole_standing_iff (f := fun a => .ok (a :: read))).trans ?_
    simp only [Except.ok.injEq]
  induction ws generalizing read with
  | nil =>
    constructor
    · rintro rfl
      exact ⟨[], rfl, rfl⟩
    · rintro ⟨as, rfl, has⟩
      obtain rfl : as = [] := List.map_eq_nil_iff.mp has.symm
      rfl
  | cons w ws ih =>
    constructor
    · rintro ⟨s₁, htaken, hws⟩
      obtain ⟨a, ha, rfl⟩ := (hwhole read w s₁).mp htaken
      obtain ⟨as, rfl, has⟩ := ih.mp hws
      refine ⟨a :: as, by simp, ?_⟩
      rw [List.map_cons, List.map_cons, ha, has]
    · rintro ⟨as, rfl, has⟩
      cases as with
      | nil => nomatch has
      | cons a as =>
        obtain ⟨ha, has⟩ := List.cons.inj has
        refine ⟨a :: read, (hwhole read w _).mpr ⟨a, ha, rfl⟩, ih.mpr ⟨as, ?_, has⟩⟩
        simp

end List

/-! ### Brackets -/

theorem Container.rest_of_closeList {c d : Cursor} (hc : c.rest.head? = some ']')
    (h : closeList c = .ok ((), d)) : c.rest = ']' :: d.rest := by
  obtain ⟨cs, p⟩ := c
  obtain ⟨rest, rfl⟩ : ∃ rest, cs = ']' :: rest := List.head?_eq_some_iff.mp hc
  obtain ⟨-, rfl⟩ := Prod.mk.inj (Except.ok.inj ((reads_closeList rest p).symm.trans h))
  rfl

theorem Container.rest_of_closeObject {c d : Cursor} (hc : c.rest.head? = some '\x7d')
    (h : closeObject c = .ok ((), d)) : c.rest = '\x7d' :: d.rest := by
  obtain ⟨cs, p⟩ := c
  obtain ⟨rest, rfl⟩ : ∃ rest, cs = '\x7d' :: rest := List.head?_eq_some_iff.mp hc
  obtain ⟨-, rfl⟩ := Prod.mk.inj (Except.ok.inj ((reads_closeObject rest p).symm.trans h))
  rfl

theorem Schema.takes_list {item : Schema} {levels : Nat} (h : Takes Stops (item.reader levels)) :
    Takes Stops ((Schema.list item).reader (levels + 1)) := by
  rw [reader_list_eq]
  refine Takes.peekBehindSpace fun o ho => ?_
  split
  · exact TakesAt.failHere _
  · refine TakesAt.behind (Takes.settled ((local_listBody h).takes fun as => ?_) _).local
    exact takes_closeList.anywhere.bind fun _ => Local.pure _
  · exact fun _ _ _ _ hr => absurd hr (unexpected_ne_ok _ _ _)

/-- What is read as a list is put together of items. Blanks in front of the closing bracket belong
to the last item, if there is one. -/
theorem Schema.list_of_whole {item : Schema} {levels : Nat} (h : (item.reader levels).ReadsValues)
    {w : List Char} {as : List item.Val}
    (hw : Document.whole ((Schema.list item).reader (levels + 1)) (String.ofList w) = .ok as) :
    ∃ t : ListText, t.Spaced ∧ (t.items ≠ [] → t.close = []) ∧ t.chars = w ∧
      t.items.map (fun e => Document.whole (item.reader levels) (String.ofList e)) =
        as.map .ok := by
  obtain ⟨c, d, hread, hfinish⟩ := Document.whole_eq_ok_iff.mp hw
  have hbehind := Document.blanks_of_finish hfinish
  rw [reader_list_eq] at hread
  obtain ⟨before, e, hbefore, htext, hread, -⟩ := of_peekBehindSpace_ok hread
  have hw : (Cursor.ofString (String.ofList w)).rest = w := String.toList_ofList
  rw [hw] at htext
  generalize ho : e.rest.head? = o at hread
  split at hread
  · exact absurd hread (failHere_ne_ok _ _ _)
  · obtain ⟨f, hf, hread⟩ := of_skip_ok ho hread
    obtain ⟨as', g, hbody, hread⟩ := of_bind_ok (of_settled_ok hread)
    obtain ⟨_, k, hclose, hread⟩ := of_bind_ok hread
    obtain ⟨rfl, rfl⟩ := Prod.mk.inj (Except.ok.inj hread)
    obtain ⟨ws, close, read, hspaced, hno, hinner, hend, hchain, rfl⟩ := parts_of_loop
      separates_hasItem (loops_items (item.reader levels)) (takesParts_item h.takes) hbody
    obtain ⟨as, rfl, has⟩ := (chain_items_iff h).mp hchain
    refine ⟨⟨before, ws, close, k.rest⟩, ⟨hbefore, hspaced, hbehind⟩, hno, ?_, ?_⟩
    · rw [htext, hf, hinner, rest_of_closeList hend hclose]
      rfl
    · rw [List.append_nil, List.reverse_reverse]
      exact has
  · exact absurd hread (unexpected_ne_ok _ _ _)

/-- A list is read if each of its items is, as a document of its own. -/
theorem Schema.whole_list_iff {item : Schema} {levels : Nat} (h : (item.reader levels).ReadsValues)
    {w : List Char} {as : List item.Val} :
    Document.whole ((Schema.list item).reader (levels + 1)) (String.ofList w) = .ok as ↔
      ∃ t : ListText, t.Spaced ∧ t.chars = w ∧
        t.items.map (fun e => Document.whole (item.reader levels) (String.ofList e)) =
          as.map .ok := by
  constructor
  · intro hw
    obtain ⟨t, ht, -, hchars, has⟩ := Schema.list_of_whole h hw
    exact ⟨t, ht, hchars, has⟩
  · rintro ⟨⟨before, ws, close, behind⟩, ⟨hbefore, hclose, hbehind⟩, rfl, has⟩
    -- The loop gathers the items from the last to the first and turns them round at the end.
    have hchain : Chain OpensItem (nextItem (item.reader levels)) ws [] _ :=
      (chain_items_iff h).mpr ⟨as, rfl, has⟩
    have hbody := reads_loop separates_hasItem (loops_items (item.reader levels))
      (stops_cons (.inr (.inr (.inl rfl))) behind) hclose hchain
    rw [List.append_nil, List.reverse_reverse] at hbody
    refine Document.whole_of_reads ?_ hbehind (reads_list hbefore hbody)
    simp [ListText.chars]

/-! ### Members -/

section Member

variable {σ α : Type} {step : String → σ → Reader σ} {name : String} {s s₁ : σ}

theorem Container.of_colon_ok {c d : Cursor} (h : colon c = .ok ((), d)) :
    ∃ gap, Blanks gap ∧ c.rest = gap ++ ':' :: d.rest := by
  rw [colon] at h
  obtain ⟨gap, e, hgap, htext, h, -⟩ := of_peekBehindSpace_ok h
  generalize ho : e.rest.head? = o at h
  split at h
  · exact absurd h (failHere_ne_ok _ _ _)
  · obtain ⟨f, hf, h⟩ := of_skip_ok (f := pure) ho h
    obtain ⟨-, rfl⟩ := Prod.mk.inj (Except.ok.inj h)
    exact ⟨gap, hgap, hf ▸ htext⟩
  · exact absurd h (failAhead_ne_ok _ _ _)

/-- A member is read if its value is, as a document of its own. -/
theorem Container.takesUp_member {m : MemberText} {value : Reader α} {a : α} {f : α → σ}
    (hvalue : Takes Stops value) (hname : m.Names name)
    (hstep : step name s = colon >>= fun _ => value >>= fun a => pure (f a))
    (h : Document.whole value (String.ofList m.value) = .ok a) :
    (nextMember step s).TakesUp OpensMember m.chars (f a) := by
  obtain ⟨label, text⟩ := m
  obtain ⟨lead, cs, gap, rfl, hlead, hgap, hbody⟩ := Document.value_read_text_iff.mp hname
  obtain ⟨used, trail, htext, htrail, -, hreads⟩ := Document.of_whole hvalue h
  obtain rfl : text = used ++ trail := String.toList_ofList.symm.trans htext
  have hpart : ∀ rest, Stops rest →
      (nextMember step s).Reads ('"' :: (cs ++ (gap ++ [':'] ++ used))) rest (f a) := by
    intro rest hrest
    refine Reads.bind (s := ['"']) (reads_skip '"' _) (Reads.bind (hbody _) ?_)
    rw [hstep]
    exact Reads.bind (reads_colon hgap _) (Reads.map f (hreads rest hrest))
  have htaken : (nextMember step s).TakesUp OpensMember _ (f a) :=
    .mk hlead htrail rfl hpart
  simpa [MemberText.chars] using htaken

/-- Whatever is read as a member consists of a name and of what `step` reads behind it. -/
theorem Container.of_takesUp_member {w : List Char}
    (h : (nextMember step s).TakesUp OpensMember w s₁) :
    ∃ lead cs trail name c c', w = lead ++ '"' :: cs ++ c.rest ++ trail ∧ Blanks lead ∧
      Blanks trail ∧ (∀ rest, Quoted.body.Reads cs rest name) ∧ c'.rest = [] ∧
      step name s c = .ok (s₁, c') := by
  obtain ⟨hlead, htrail, hopens, hreads⟩ := h
  next lead trail xs x =>
  obtain rfl : x = '"' := hopens
  -- The member is read alone, so that nothing is left behind it.
  have hread := hreads [] stops_nil ⟨1, 0⟩
  obtain ⟨d, hd, hread⟩ := of_skip_ok rfl hread
  obtain ⟨name, e, hbody, hread⟩ := of_bind_ok hread
  obtain ⟨used, hused⟩ := Quoted.takes_body.local _ d name e rfl hbody
  obtain ⟨-, hxs⟩ := List.cons.inj hd
  have hxs : xs = used ++ e.rest := (List.append_nil xs).symm.trans (hxs.trans hused.text)
  refine ⟨lead, used, trail, name, e, _, ?_, hlead, htrail, ?_, rfl, hread⟩
  · rw [hxs]
    simp
  · exact fun rest => hused.reads rest (.inr trivial)

/-- The value behind the colon is a document of its own. -/
theorem Container.member_of_ok {lead cs trail : List Char} {value : Reader α} {f : α → σ}
    {c c' : Cursor} (hvalue : Takes Stops value) (hlead : Blanks lead) (htrail : Blanks trail)
    (hbody : ∀ rest, Quoted.body.Reads cs rest name) (hc' : c'.rest = [])
    (h : (colon >>= fun _ => value >>= fun a => pure (f a) : Reader σ) c = .ok (s₁, c')) :
    ∃ (m : MemberText) (a : α), lead ++ '"' :: cs ++ c.rest ++ trail = m.chars ∧ m.Names name ∧
      Document.whole value (String.ofList m.value) = .ok a ∧ s₁ = f a := by
  obtain ⟨⟨⟩, d, hcolon, h⟩ := of_bind_ok h
  obtain ⟨a, e, ha, h⟩ := of_bind_ok h
  obtain ⟨rfl, rfl⟩ := Prod.mk.inj (Except.ok.inj h)
  obtain ⟨gap, hgap, htext⟩ := of_colon_ok hcolon
  obtain ⟨used, -, hused⟩ := hvalue _ d a e rfl ha
  refine ⟨⟨lead ++ '"' :: cs ++ gap, used ++ trail⟩, a, ?_, ?_, ?_, rfl⟩
  · rw [htext, hused.text, hc']
    simp [MemberText.chars]
  · exact Document.value_read_text_iff.mpr ⟨lead, cs, gap, rfl, hlead, hgap, hbody⟩
  · exact Document.whole_of_reads String.toList_ofList htrail
      (hused.reads trail (.inr (stops_blanks htrail)))

end Member

/-! ### Records with one field -/

/-- The one field of a record. -/
abbrev Fields.sole (name : String) (s : Schema) : Fields := .cons (.plain name) s .nil

section Sole

variable {name : String} {s : Schema} {levels : Nat}

/-- What has been read of the field, if anything has. -/
abbrev Fields.soleSlots (name : String) (s : Schema) (slot : Option s.Val) :
    (Fields.sole name s).Slots :=
  slotsCons (.plain name) slot Fields.nil.emptySlots

theorem Label.covers_plain (name other : String) :
    (Label.plain name).covers other = decide (name = other) := Bool.or_false _

theorem Fields.step_own :
    (sole name s).memberStep levels name (soleSlots name s none) =
      colon >>= fun _ => s.reader levels >>= fun a => pure (soleSlots name s (some a)) := by
  rw [memberStep, memberReader_cons, Label.covers_plain, decide_eq_true rfl, if_pos rfl]

theorem Fields.step_other {other : String} (h : other ≠ name) (slot : Option s.Val) :
    (sole name s).memberStep levels other (soleSlots name s slot) =
      colon >>= fun _ => Skipped.value >>= fun _ => pure (soleSlots name s slot) := by
  rw [memberStep, memberReader_cons, Label.covers_plain, decide_eq_false h.symm,
    if_neg Bool.false_ne_true]
  show ((colon >>= fun _ => Skipped.value >>= fun _ => pure Fields.nil.emptySlots) >>= _) = _
  simp only [bind_assoc, pure_bind]

/-- The name must not come twice. -/
theorem Fields.step_again {a : s.Val} {c : Cursor} {r : (sole name s).Slots × Cursor}
    (h : (sole name s).memberStep levels name (soleSlots name s (some a)) c = .ok r) : False := by
  rw [memberStep, memberReader_cons, Label.covers_plain, decide_eq_true rfl, if_pos rfl] at h
  exact fail_ne_ok _ _ _ h

/-- The reader of one member. -/
abbrev Fields.solePart (name : String) (s : Schema) (levels : Nat) :
    (sole name s).Slots → Reader (sole name s).Slots :=
  nextMember ((sole name s).memberStep levels)

theorem Fields.takesParts_sole (h : Takes Stops (s.reader levels)) :
    TakesParts OpensMember (solePart name s levels) := by
  refine takesParts_member fun other slots => ?_
  obtain ⟨slot, ⟨⟩⟩ := slots
  by_cases hname : other = name
  · subst hname
    cases slot with
    | none =>
      show Local Stops ((sole other s).memberStep levels other (soleSlots other s none))
      rw [step_own]
      exact takes_colon.anywhere.local.bind fun _ => h.local.bind fun a => Local.pure _
    | some a => exact fun _ _ _ _ _ hr => (step_again hr).elim
  · show Local Stops ((sole name s).memberStep levels other (soleSlots name s slot))
    rw [step_other hname]
    exact takes_colon.anywhere.local.bind fun _ => Skipped.takes_value.local.bind fun _ =>
      Local.pure _

/-- Members with other names change nothing. -/
theorem Fields.chain_others {ms : List MemberText} (h : ∀ m ∈ ms, m.IsOther name)
    (slot : Option s.Val) :
    Chain OpensMember (solePart name s levels) (ms.map MemberText.chars) (soleSlots name s slot)
      (soleSlots name s slot) := by
  induction ms with
  | nil => rfl
  | cons m ms ih =>
    obtain ⟨⟨other, hother, hname⟩, hvalue⟩ := h m List.mem_cons_self
    refine ⟨_, ?_, ih fun m hm => h m (List.mem_cons_of_mem _ hm)⟩
    exact takesUp_member (f := fun _ => soleSlots name s slot) Skipped.takes_value hname
      (step_other hother slot) hvalue

/-- What is read as a member is the one that is looked for, or it has another name. -/
theorem Fields.member_of_takesUp (h : Takes Stops (s.reader levels)) {w : List Char}
    {slot : Option s.Val} {slots : (sole name s).Slots}
    (hw : (solePart name s levels (soleSlots name s slot)).TakesUp OpensMember w slots) :
    ∃ m : MemberText, w = m.chars ∧ (m.IsOther name ∧ slots = soleSlots name s slot ∨
      slot = none ∧ m.Names name ∧ ∃ a, slots = soleSlots name s (some a) ∧
        Document.whole (s.reader levels) (String.ofList m.value) = .ok a) := by
  obtain ⟨lead, cs, trail, other, c, c', rfl, hlead, htrail, hbody, hc', hstep⟩ :=
    of_takesUp_member hw
  by_cases hname : other = name
  · subst hname
    -- The field that is looked for: it must not have been read before.
    cases slot with
    | some a => exact (step_again hstep).elim
    | none =>
      rw [step_own] at hstep
      obtain ⟨m, a, hm, hnames, hvalue, rfl⟩ :=
        member_of_ok h hlead htrail hbody hc' hstep
      exact ⟨m, hm, .inr ⟨rfl, hnames, a, rfl, hvalue⟩⟩
  · rw [step_other hname] at hstep
    obtain ⟨m, ⟨⟩, hm, hnames, hvalue, rfl⟩ := member_of_ok
      (f := fun _ => soleSlots name s slot) Skipped.takes_value hlead htrail hbody hc' hstep
    exact ⟨m, hm, .inl ⟨⟨⟨other, hname, hnames⟩, hvalue⟩, rfl⟩⟩

/-- Once the field has been read, all members that are left have other names. -/
theorem Fields.others_of_chain (h : Takes Stops (s.reader levels)) {ws : List (List Char)}
    {a : s.Val} {slots : (sole name s).Slots}
    (hws : Chain OpensMember (solePart name s levels) ws (soleSlots name s (some a)) slots) :
    ∃ ms : List MemberText, ws = ms.map MemberText.chars ∧ (∀ m ∈ ms, m.IsOther name) ∧
      slots = soleSlots name s (some a) := by
  induction ws with
  | nil => exact ⟨[], rfl, List.forall_mem_nil _, hws.symm⟩
  | cons w ws ih =>
    obtain ⟨slots₁, hw, hws⟩ := hws
    obtain ⟨m, rfl, ⟨hother, rfl⟩ | ⟨hslot, -⟩⟩ := member_of_takesUp h hw
    · obtain ⟨ms, rfl, hms, rfl⟩ := ih hws
      exact ⟨m :: ms, rfl, List.forall_mem_cons.mpr ⟨hother, hms⟩, rfl⟩
    · nomatch hslot

/-- Just one member has the name, if the field is read at all. -/
theorem Fields.sole_of_chain (h : Takes Stops (s.reader levels)) {ws : List (List Char)}
    {a : s.Val}
    (hws : Chain OpensMember (solePart name s levels) ws (soleSlots name s none)
      (soleSlots name s (some a))) :
    ∃ (front : List MemberText) (m : MemberText) (back : List MemberText),
      ws = (front ++ m :: back).map MemberText.chars ∧ (∀ m ∈ front, m.IsOther name) ∧
        m.Names name ∧ Document.whole (s.reader levels) (String.ofList m.value) = .ok a ∧
        ∀ m ∈ back, m.IsOther name := by
  induction ws with
  | nil => nomatch hws
  | cons w ws ih =>
    obtain ⟨slots₁, hw, hws⟩ := hws
    obtain ⟨m, rfl, ⟨hother, rfl⟩ | ⟨-, hnames, a', rfl, hvalue⟩⟩ := member_of_takesUp h hw
    -- Members in front of the field have other names, and so have all that come behind it.
    · obtain ⟨front, m', back, rfl, hfront, hrest⟩ := ih hws
      exact ⟨m :: front, m', back, rfl, List.forall_mem_cons.mpr ⟨hother, hfront⟩, hrest⟩
    · obtain ⟨back, rfl, hback, hslots⟩ := others_of_chain h hws
      obtain ⟨hsome, -⟩ := slotsCons_inj.mp hslots
      obtain rfl := Option.some.inj hsome
      exact ⟨[], m, back, rfl, List.forall_mem_nil _, hnames, hvalue, hback⟩

/-- The record of the field, when that has been read. -/
theorem Fields.row_sole_iff {slots : (sole name s).Slots} {a : s.Val} :
    (sole name s).row slots = .ok (rowCons (.plain name) a ()) ↔
      slots = soleSlots name s (some a) := by
  obtain ⟨slot, ⟨⟩⟩ := slots
  show (sole name s).row (soleSlots name s slot) = _ ↔ soleSlots name s slot = _
  refine row_cons_iff.trans ?_
  constructor
  · rintro ⟨rfl | ⟨-, hrequired, -⟩, -⟩
    · rfl
    · nomatch hrequired
  · intro h
    have h : soleSlots name s slot = soleSlots name s (some a) := h
    obtain ⟨rfl, -⟩ := slotsCons_inj.mp h
    exact ⟨.inl rfl, rfl⟩

/-- An object with just one such member is read if the value of that member is. -/
theorem Schema.whole_sole (record : String) (h : Takes Stops (s.reader levels)) {a : s.Val}
    {o : ObjectText} (ho : o.HasSole name)
    (ha : Document.whole (s.reader levels) (String.ofList o.member.value) = .ok a) :
    Document.whole ((Schema.record record (Fields.sole name s)).reader (levels + 1))
      (String.ofList o.chars) = .ok (Fields.rowCons (.plain name) a ()) := by
  have hmember : Chain OpensMember (Fields.solePart name s levels)
      (MemberText.chars o.member :: o.back.map MemberText.chars) (Fields.soleSlots name s none)
      (Fields.soleSlots name s (some a)) :=
    ⟨_, takesUp_member h ho.member Fields.step_own ha, Fields.chain_others ho.back (some a)⟩
  have hchain := (Fields.chain_others ho.front none).append hmember
  rw [← List.map_cons, ← List.map_append] at hchain
  have hbody := reads_loop separates_hasMember (loops_members _)
    (stops_cons (.inr (.inr (.inr rfl))) o.behind) ho.close hchain
  refine Document.whole_of_reads ?_ ho.behind
    (reads_record record ho.before hbody (Fields.row_sole_iff.mpr rfl))
  simp [ObjectText.chars, ObjectText.members]

/-- Whatever is read from an object has just one such member. -/
theorem Schema.object_of_whole {record : String} (h : Takes Stops (s.reader levels)) {a : s.Val}
    {w : List Char} (hw : (w.dropWhile isSpace).head? = some '\x7b')
    (ha : Document.whole ((Schema.record record (Fields.sole name s)).reader (levels + 1))
      (String.ofList w) = .ok (Fields.rowCons (.plain name) a ())) :
    ∃ o : ObjectText, o.HasSole name ∧ o.chars = w ∧
      Document.whole (s.reader levels) (String.ofList o.member.value) = .ok a := by
  obtain ⟨c, d, hread, hfinish⟩ := Document.whole_eq_ok_iff.mp ha
  have hbehind := Document.blanks_of_finish hfinish
  have hcursor : (Cursor.ofString (String.ofList w)).rest = w := String.toList_ofList
  rw [reader_record_eq] at hread
  obtain ⟨before, e, hbefore, htext, hread, hspace⟩ := of_peekBehindSpace_ok hread
  rw [hcursor] at htext
  -- The brace is the first character that is no blank, so neither a list nor a leaf is read.
  have hbrace : e.rest.head? = some '\x7b' := by
    rw [← hw, htext, List.dropWhile_append_of_pos hbefore]
    cases hcs : e.rest with
    | nil => rfl
    | cons x cs =>
      rw [hcs] at hspace
      rw [List.dropWhile_cons, hspace x rfl]
      rfl
  rw [hbrace] at hread
  obtain ⟨f, hf, hread⟩ := of_skip_ok hbrace hread
  obtain ⟨slots, g, hbody, hread⟩ := of_bind_ok (of_settled_ok hread)
  obtain ⟨row, k, hstanding, hread⟩ := of_bind_ok hread
  obtain ⟨hrow, rfl⟩ := standing_ok_iff.mp hstanding
  obtain ⟨⟨⟩, k, hclose, hread⟩ := of_bind_ok hread
  obtain ⟨rfl, rfl⟩ := Prod.mk.inj (Except.ok.inj hread)
  obtain ⟨ws, close, slots', hspaced, -, hinner, hend, hchain, rfl⟩ := parts_of_loop
    separates_hasMember (loops_members _) (Fields.takesParts_sole h) hbody
  obtain rfl := Fields.row_sole_iff.mp (mapError_ok_iff.mp hrow)
  obtain ⟨front, m, back, rfl, hfront, hnames, hvalue, hback⟩ := Fields.sole_of_chain h hchain
  refine ⟨⟨before, front, m, back, close, k.rest⟩,
    ⟨hbefore, hfront, hnames, hback, hspaced, hbehind⟩, ?_, hvalue⟩
  rw [htext, hf, hinner, rest_of_closeObject hend hclose]
  rfl

end Sole

end Json
end CodeQuality
