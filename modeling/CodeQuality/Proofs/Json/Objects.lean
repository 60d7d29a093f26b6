import CodeQuality.Proofs.Json.Regular

/-!
# Objects as texts

The text of an object is put together of the texts of its members in one way only, because where a
name ends and where a value ends can be told from the text; the same holds of a list and its items.
So what is read of an object may be told by its members: each has a name and the text of a value,
and what is made of the object is made of these pairs in their order.

* `Splits` — parts of a container that can be told apart, and `Splits.container_inj` of all of them.
* `MembersText` — the text of an object, with its members.
* `MembersText.WellFormed.eq_of_chars` — there is one way only.
* `Container.whole_object_iff`, `MembersText.WellFormed.whole_iff` — what is read of an object.
-/

namespace CodeQuality
namespace Json

open Reader Container

variable {α β σ : Type}

/-! ### Members -/

namespace MemberText

/-- The name that the label denotes, if it denotes one: where an escape stands for half of a
surrogate pair, it does not. -/
def name? (m : MemberText) : Option String :=
  match Value.read (String.ofList m.label) with
  | .ok (.text name) => some name
  | _ => none

/-- The name with the text of the value. -/
def pair? (m : MemberText) : Option (String × List Char) := m.name?.map (·, m.value)

/-- A quoted name and a value, each with blanks around it. -/
structure IsMember (m : MemberText) : Prop where
  label : ∃ p : Padded, IsQuoted p.core ∧ m.label = p.chars
  value : IsDocument m.value

theorem name?_eq_some_iff {m : MemberText} {name : String} :
    m.name? = some name ↔ m.Names name := by
  unfold name? Names
  constructor
  · intro h
    split at h
    · next hread => rw [hread, Option.some.inj h]
    · cases h
  · intro h
    rw [h]

theorem pair?_eq_some_iff {m : MemberText} {name : String} {w : List Char} :
    m.pair? = some (name, w) ↔ m.Names name ∧ m.value = w := by
  unfold pair?
  rw [Option.map_eq_some_iff]
  constructor
  · rintro ⟨name', hname, heq⟩
    obtain ⟨rfl, rfl⟩ := Prod.mk.inj heq
    exact ⟨name?_eq_some_iff.mp hname, rfl⟩
  · rintro ⟨hname, rfl⟩
    exact ⟨name, name?_eq_some_iff.mpr hname, rfl⟩

/-- What denotes a name is a quoted text. -/
theorem label_of_names {m : MemberText} {name : String} (h : m.Names name) :
    ∃ p : Padded, IsQuoted p.core ∧ m.label = p.chars := by
  obtain ⟨lead, cs, trail, hlabel, hlead, htrail, hbody⟩ := Document.value_read_text_iff.mp h
  have hskip := Quoted.passes_body _ _ _ (hbody [] ⟨1, 0⟩)
  obtain ⟨cs', hcs', htext⟩ := Quoted.of_skipBody_ok hskip
  obtain rfl : cs = cs' := by simpa using htext
  exact ⟨⟨lead, '"' :: cs, trail, hlead, htrail⟩, ⟨cs, hcs', rfl⟩, hlabel⟩

/-- A member whose name can be told and whose value can be passed over. -/
theorem IsMember.of_names {m : MemberText} {name : String} (h : m.Names name)
    (hvalue : Document.whole Skipped.value (String.ofList m.value) = .ok ()) : m.IsMember :=
  ⟨label_of_names h, Skipped.whole_value_iff.mp hvalue⟩

end MemberText

/-! ### One way only -/

/-- What reads a text tells where it ends. -/
theorem Reader.Reads.append_inj {reader : Reader α} {cs ds rest rest' : List Char} {a b : α}
    (h : reader.Reads cs rest a) (h' : reader.Reads ds rest' b)
    (heq : cs ++ rest = ds ++ rest') : cs = ds ∧ rest = rest' := by
  have hread := h ⟨1, 0⟩
  rw [heq, h' ⟨1, 0⟩] at hread
  obtain rfl : rest' = rest := congrArg Cursor.rest (Prod.mk.inj (Except.ok.inj hread)).2
  exact ⟨List.append_cancel_right heq, rfl⟩

/-- Where blanks end can be told from what stands behind them. -/
theorem blanks_append_inj {bs bs' rest rest' : List Char} (hb : Blanks bs) (hb' : Blanks bs')
    (hrest : ∀ x ∈ rest.head?, isSpace x = false) (hrest' : ∀ x ∈ rest'.head?, isSpace x = false)
    (heq : bs ++ rest = bs' ++ rest') : bs = bs' ∧ rest = rest' :=
  (reads_peekBehindSpace hb hrest).append_inj (reads_peekBehindSpace hb' hrest') heq

/-- What may stand behind a part of a container: a comma, or the bracket that closes it. -/
def EndsPart (frame : Skipped.Frame) (rest : List Char) : Prop :=
  rest.head? = some ',' ∨ rest.head? = some frame.close

section Ends

variable {frame : Skipped.Frame} {rest rest' : List Char}

theorem Skipped.Frame.isSpace_close (frame : Skipped.Frame) : isSpace frame.close = false := by
  cases frame <;> rfl

theorem EndsPart.isSpace_head (h : EndsPart frame rest) : ∀ x ∈ rest.head?, isSpace x = false := by
  intro x hx
  rcases h with h | h <;> cases h.symm.trans hx
  · rfl
  · exact frame.isSpace_close

theorem EndsPart.stops (h : EndsPart frame rest) : Stops rest := by
  rcases h with h | h
  · obtain ⟨rest, rfl⟩ := List.head?_eq_some_iff.mp h
    exact stops_cons (.inr (.inl rfl)) rest
  · obtain ⟨rest, rfl⟩ := List.head?_eq_some_iff.mp h
    exact frame.stops_close rest

/-- Where a document ends can be told from the text. -/
theorem IsDocument.append_inj {w w' : List Char} (h : IsDocument w) (h' : IsDocument w')
    (hrest : EndsPart frame rest) (hrest' : EndsPart frame rest') (heq : w ++ rest = w' ++ rest') :
    w = w' ∧ rest = rest' := by
  obtain ⟨⟨lead, core, trail, hlead, htrail⟩, hcore, rfl⟩ := h
  obtain ⟨⟨lead', core', trail', hlead', htrail'⟩, hcore', rfl⟩ := h'
  have hsplit : lead ++ core ++ (trail ++ rest) = lead' ++ core' ++ (trail' ++ rest') := by
    simpa [Padded.chars] using heq
  have hvalue := Skipped.decodes_value hcore lead _ hlead (stops_append htrail hrest.stops)
  have hvalue' := Skipped.decodes_value hcore' lead' _ hlead' (stops_append htrail' hrest'.stops)
  obtain ⟨hcores, hbehind⟩ := hvalue.append_inj hvalue' hsplit
  obtain ⟨rfl, rfl⟩ :=
    blanks_append_inj htrail htrail' hrest.isSpace_head hrest'.isSpace_head hbehind
  exact ⟨congrArg (· ++ trail) hcores, rfl⟩

/-- Where a member ends, and where its name ends, can be told from the text. -/
theorem MemberText.IsMember.append_inj {m m' : MemberText} (h : m.IsMember) (h' : m'.IsMember)
    (hrest : EndsPart frame rest) (hrest' : EndsPart frame rest')
    (heq : m.chars ++ rest = m'.chars ++ rest') : m = m' ∧ rest = rest' := by
  obtain ⟨label, value⟩ := m
  obtain ⟨label', value'⟩ := m'
  obtain ⟨⟨name, hname, rfl⟩, hvalue⟩ := h
  obtain ⟨⟨name', hname', rfl⟩, hvalue'⟩ := h'
  have hsplit : name.chars ++ [':'] ++ (value ++ rest) =
      name'.chars ++ [':'] ++ (value' ++ rest') := by
    simpa [MemberText.chars] using heq
  obtain ⟨hlabel, hsplit⟩ := (Skipped.reads_lead _ hname _).append_inj
    (Skipped.reads_lead _ hname' _) hsplit
  obtain ⟨rfl, rfl⟩ := IsDocument.append_inj hvalue hvalue' hrest hrest' hsplit
  exact ⟨congrArg (MemberText.mk · value) (List.append_cancel_right hlabel), rfl⟩

end Ends

/-- The texts of these parts of a container can be told apart from what stands around them. -/
structure Splits (frame : Skipped.Frame) (IsPart : β → Prop) (chars : β → List Char) : Prop where
  append_inj {p p' : β} {rest rest' : List Char} (h : IsPart p) (h' : IsPart p')
    (hrest : EndsPart frame rest) (hrest' : EndsPart frame rest')
    (heq : chars p ++ rest = chars p' ++ rest') : p = p' ∧ rest = rest'
  opens {p : β} (h : IsPart p) : ∃ lead x xs, Blanks lead ∧ chars p = lead ++ x :: xs ∧
    isSpace x = false ∧ x ≠ frame.close

theorem splits_items : Splits .list IsDocument id where
  append_inj := IsDocument.append_inj
  opens h := by
    obtain ⟨⟨lead, core, trail, hlead, _⟩, hcore, rfl⟩ := h
    obtain ⟨x, xs, rfl, hspace, hclose⟩ := opens_of_isValue hcore
    exact ⟨lead, x, xs ++ trail, hlead, by simp [Padded.chars], hspace, hclose⟩

theorem splits_members : Splits .object MemberText.IsMember MemberText.chars where
  append_inj := MemberText.IsMember.append_inj
  opens {m} h := by
    obtain ⟨⟨lead, _, trail, hlead, _⟩, ⟨cs, _, rfl⟩, hlabel⟩ := h.label
    refine ⟨lead, '"', cs ++ trail ++ ':' :: m.value, hlead, ?_, rfl, by decide⟩
    rw [MemberText.chars, hlabel]
    simp [Padded.chars]

namespace Splits

variable {frame : Skipped.Frame} {IsPart : β → Prop} {chars : β → List Char} {ps ps' : List β}
  {gap gap' behind behind' : List Char}

/-- Behind each part but the last one there is a comma. -/
theorem endsPart_flatMap (frame : Skipped.Frame) (ws : List (List Char)) (behind : List Char) :
    EndsPart frame (ws.flatMap (',' :: ·) ++ frame.close :: behind) := by
  cases ws with
  | nil => exact .inr rfl
  | cons w ws => exact .inl rfl

/-- Where the parts behind the first one end can be told from the text. -/
theorem flatMap_inj (h : Splits frame IsPart chars) (hps : ∀ p ∈ ps, IsPart p)
    (hps' : ∀ p ∈ ps', IsPart p)
    (heq : (ps.map chars).flatMap (',' :: ·) ++ frame.close :: behind =
      (ps'.map chars).flatMap (',' :: ·) ++ frame.close :: behind') :
    ps = ps' ∧ behind = behind' := by
  have hcomma : ',' ≠ frame.close := by cases frame <;> decide
  induction ps generalizing ps' with
  | nil =>
    cases ps' with
    | nil => exact ⟨rfl, (List.cons.inj heq).2⟩
    | cons p' ps' => exact absurd (List.cons.inj heq).1.symm hcomma
  | cons p ps ih =>
    cases ps' with
    | nil => exact absurd (List.cons.inj heq).1 hcomma
    | cons p' ps' =>
      obtain ⟨hp, hlater⟩ := List.forall_mem_cons.mp hps
      obtain ⟨hp', hlater'⟩ := List.forall_mem_cons.mp hps'
      simp only [List.map_cons, List.flatMap_cons, List.append_assoc, List.cons_append,
        List.cons.injEq, true_and] at heq
      obtain ⟨rfl, hrest⟩ := h.append_inj hp hp' (endsPart_flatMap frame _ _)
        (endsPart_flatMap frame _ _) heq
      obtain ⟨rfl, rfl⟩ := ih hlater hlater' hrest
      exact ⟨rfl, rfl⟩

/-- Where a part stands, it is not the closing bracket that comes behind the blanks. -/
theorem close_ne (h : Splits frame IsPart chars) {p : β} (hp : IsPart p) {rest : List Char}
    (hgap : Blanks gap) : gap ++ frame.close :: behind ≠ chars p ++ rest := by
  intro heq
  obtain ⟨lead, x, xs, hlead, hchars, hspace, hclose⟩ := h.opens hp
  rw [hchars, List.append_assoc] at heq
  have hhead {y : Char} {cs : List Char} (hy : isSpace y = false) :
      ∀ z ∈ (y :: cs).head?, isSpace z = false := fun z hz => Option.some.inj hz ▸ hy
  obtain ⟨-, hrest⟩ :=
    blanks_append_inj hgap hlead (hhead frame.isSpace_close) (hhead hspace) heq
  exact hclose (List.cons.inj hrest).1.symm

/-- What stands between the brackets can be split into parts in one way only. -/
theorem join_inj (h : Splits frame IsPart chars) (hps : ∀ p ∈ ps, IsPart p)
    (hps' : ∀ p ∈ ps', IsPart p) (hgap : Blanks gap) (hgap' : Blanks gap')
    (hno : ps ≠ [] → gap = []) (hno' : ps' ≠ [] → gap' = [])
    (heq : Text.join ',' (ps.map chars) ++ gap ++ frame.close :: behind =
      Text.join ',' (ps'.map chars) ++ gap' ++ frame.close :: behind') :
    ps = ps' ∧ gap = gap' ∧ behind = behind' := by
  cases ps with
  | nil =>
    cases ps' with
    | nil =>
      have hhead {cs : List Char} : ∀ x ∈ (frame.close :: cs).head?, isSpace x = false :=
        fun x hx => Option.some.inj hx ▸ frame.isSpace_close
      obtain ⟨rfl, hend⟩ := blanks_append_inj hgap hgap' hhead hhead heq
      exact ⟨rfl, rfl, (List.cons.inj hend).2⟩
    | cons p' ps' =>
      rw [List.map_cons, join_cons_eq, List.append_assoc (chars p'),
        List.append_assoc (chars p')] at heq
      exact absurd heq (h.close_ne (hps' p' List.mem_cons_self) hgap)
  | cons p ps =>
    cases ps' with
    | nil =>
      rw [List.map_cons, join_cons_eq, List.append_assoc (chars p),
        List.append_assoc (chars p)] at heq
      exact absurd heq.symm (h.close_ne (hps p List.mem_cons_self) hgap')
    | cons p' ps' =>
      obtain rfl := hno (List.cons_ne_nil p ps)
      obtain rfl := hno' (List.cons_ne_nil p' ps')
      obtain ⟨hp, hlater⟩ := List.forall_mem_cons.mp hps
      obtain ⟨hp', hlater'⟩ := List.forall_mem_cons.mp hps'
      simp only [List.map_cons, join_cons_eq, List.append_nil, List.append_assoc] at heq
      obtain ⟨rfl, hrest⟩ := h.append_inj hp hp' (endsPart_flatMap frame _ _)
        (endsPart_flatMap frame _ _) heq
      obtain ⟨rfl, rfl⟩ := h.flatMap_inj hlater hlater' hrest
      exact ⟨rfl, rfl, rfl⟩

/-- The bracket that opens a container can be told, too. -/
theorem container_inj (h : Splits frame IsPart chars) (hps : ∀ p ∈ ps, IsPart p)
    (hps' : ∀ p ∈ ps', IsPart p) (hgap : Blanks gap) (hgap' : Blanks gap')
    (hno : ps ≠ [] → gap = []) (hno' : ps' ≠ [] → gap' = []) {before before' : List Char}
    (hbefore : Blanks before) (hbefore' : Blanks before')
    (heq : before ++ frame.bracket ::
        (Text.join ',' (ps.map chars) ++ gap ++ frame.close :: behind) =
      before' ++ frame.bracket ::
        (Text.join ',' (ps'.map chars) ++ gap' ++ frame.close :: behind')) :
    before = before' ∧ ps = ps' ∧ gap = gap' ∧ behind = behind' := by
  have hhead {cs : List Char} : ∀ x ∈ (frame.bracket :: cs).head?, isSpace x = false := by
    intro x hx
    rw [← Option.some.inj hx]
    cases frame <;> rfl
  obtain ⟨hbefores, hinside⟩ := blanks_append_inj hbefore hbefore' hhead hhead heq
  exact ⟨hbefores, h.join_inj hps hps' hgap hgap' hno hno' (List.cons.inj hinside).2⟩

end Splits

/-! ### Objects -/

/-- The text of an object, with its members. -/
structure MembersText where
  before : List Char
  members : List MemberText
  /-- between the braces, if there are no members -/
  gap : List Char
  behind : List Char

namespace MembersText

def chars (o : MembersText) : List Char :=
  o.before ++ '\x7b' :: (Text.join ',' (o.members.map MemberText.chars) ++ o.gap ++
    '\x7d' :: o.behind)

def text (o : MembersText) : String := String.ofList o.chars

/-- The members are well-formed, and there is nothing but blanks around them. -/
structure WellFormed (o : MembersText) : Prop where
  before : Blanks o.before
  members : ∀ m ∈ o.members, m.IsMember
  gap : Blanks o.gap
  no_gap : o.members ≠ [] → o.gap = []
  behind : Blanks o.behind

/-- Can each member be told by its name and be passed over, with only blanks around them? -/
def legible (o : MembersText) : Bool :=
  o.before.all isSpace && o.gap.all isSpace && o.behind.all isSpace &&
    (o.members.isEmpty || o.gap.isEmpty) &&
      o.members.all fun m => m.name?.isSome &&
        (Document.whole Skipped.value (String.ofList m.value)).toOption.isSome

theorem WellFormed.of_legible {o : MembersText} (h : o.legible = true) : o.WellFormed := by
  simp only [legible, Bool.and_eq_true, Bool.or_eq_true, List.all_eq_true, List.isEmpty_iff] at h
  obtain ⟨⟨⟨⟨hbefore, hgap⟩, hbehind⟩, hempty⟩, hmembers⟩ := h
  refine ⟨hbefore, fun m hm => ?_, hgap, hempty.resolve_left, hbehind⟩
  obtain ⟨hname, hvalue⟩ := hmembers m hm
  obtain ⟨name, hname⟩ := Option.isSome_iff_exists.mp hname
  obtain ⟨⟨⟩, hvalue⟩ := Option.isSome_iff_exists.mp hvalue
  exact .of_names (MemberText.name?_eq_some_iff.mp hname) (toOption_eq_some_iff.mp hvalue)

/-- Are these the names of the members and the texts of their values? -/
def Lists (o : MembersText) (ps : List (String × List Char)) : Prop :=
  o.members.map MemberText.pair? = ps.map some

instance (o : MembersText) (ps : List (String × List Char)) : Decidable (o.Lists ps) :=
  inferInstanceAs (Decidable (_ = _))

theorem Lists.inj {o : MembersText} {ps ps' : List (String × List Char)} (h : o.Lists ps)
    (h' : o.Lists ps') : ps = ps' :=
  (List.map_inj_right fun _ _ => Option.some.inj).mp (h.symm.trans h')

/-- What is listed is a member. -/
theorem Lists.exists_member {o : MembersText} {ps : List (String × List Char)} (h : o.Lists ps)
    {p : String × List Char} (hp : p ∈ ps) :
    ∃ m ∈ o.members, m.Names p.1 ∧ m.value = p.2 := by
  have hmem : some p ∈ o.members.map MemberText.pair? := h ▸ List.mem_map_of_mem hp
  obtain ⟨m, hm, hpair⟩ := List.mem_map.mp hmem
  exact ⟨m, hm, MemberText.pair?_eq_some_iff.mp hpair⟩

/-- An object begins with its brace. -/
theorem WellFormed.head {o : MembersText} (h : o.WellFormed) :
    (o.chars.dropWhile isSpace).head? = some '\x7b' := by
  rw [chars, List.dropWhile_append_of_pos h.before]
  rfl

/-- There is only one way to put the text of an object together. -/
theorem WellFormed.eq_of_chars {o o' : MembersText} (h : o.WellFormed) (h' : o'.WellFormed)
    (heq : o.chars = o'.chars) : o = o' := by
  obtain ⟨before, ms, gap, behind⟩ := o
  obtain ⟨before', ms', gap', behind'⟩ := o'
  obtain ⟨rfl, rfl, rfl, rfl⟩ := splits_members.container_inj h.members h'.members h.gap h'.gap
    h.no_gap h'.no_gap h.before h'.before heq
  rfl

end MembersText

/-! ### What is read of an object -/

namespace Container

variable {step : String → σ → Reader σ} {stores : String → σ → List Char → σ → Prop} {s s' : σ}

/-- What is made of some members, one after the other, where `stores` tells what is made of one. -/
def StoresAll (stores : String → σ → List Char → σ → Prop) :
    List (String × List Char) → σ → σ → Prop
  | [], s, s' => s = s'
  | p :: ps, s, s' => ∃ s₁, stores p.1 s p.2 s₁ ∧ StoresAll stores ps s₁ s'

/-- A part of an object is a member of which `stores` makes something. -/
theorem takesUp_member_iff (h : ∀ name s, ReadsRest (step name s) (stores name s))
    {w : List Char} : (nextMember step s).TakesUp OpensMember w s' ↔
      ∃ m : MemberText, w = m.chars ∧ m.IsMember ∧
        ∃ name, m.Names name ∧ stores name s m.value s' := by
  constructor
  · intro hw
    obtain ⟨lead, cs, trail, name, c, c', rfl, hlead, htrail, hbody, hc', hstep⟩ :=
      of_takesUp_member hw
    cases h name s with
    | fails hfails => exact absurd hstep (hfails _ _)
    | reads htakes hskipped hrest hstores =>
      rw [hrest] at hstep
      obtain ⟨m, a, hm, hname, hvalue, rfl⟩ :=
        member_of_ok htakes hlead htrail hbody hc' hstep
      obtain ⟨d, e, hread, hfinish⟩ := Document.whole_eq_ok_iff.mp hvalue
      have hpassed : Document.whole Skipped.value (String.ofList m.value) = .ok () :=
        Document.whole_eq_ok_iff.mpr ⟨d, e, hskipped _ _ _ hread, hfinish⟩
      exact ⟨m, hm, .of_names hname hpassed, name, hname, (hstores _ _).mpr ⟨a, hvalue, rfl⟩⟩
  · rintro ⟨m, rfl, -, name, hname, hs⟩
    cases h name s with
    | fails _ hnone => exact absurd hs (hnone _ _)
    | reads htakes _ hrest hstores =>
      obtain ⟨a, ha, rfl⟩ := (hstores _ _).mp hs
      exact takesUp_member htakes hname hrest ha

/-- The members of an object are read one after the other. -/
theorem chain_members_iff (h : ∀ name s, ReadsRest (step name s) (stores name s))
    {ws : List (List Char)} : Chain OpensMember (nextMember step) ws s s' ↔
      ∃ (ms : List MemberText) (ps : List (String × List Char)), ws = ms.map MemberText.chars ∧
        (∀ m ∈ ms, m.IsMember) ∧ ms.map MemberText.pair? = ps.map some ∧
          StoresAll stores ps s s' := by
  induction ws generalizing s with
  | nil =>
    constructor
    · rintro rfl
      exact ⟨[], [], rfl, List.forall_mem_nil _, rfl, rfl⟩
    · rintro ⟨ms, ps, hms, -, hps, hstores'⟩
      obtain rfl := List.map_eq_nil_iff.mp hms.symm
      obtain rfl := List.map_eq_nil_iff.mp hps.symm
      exact hstores'
  | cons w ws ih =>
    constructor
    · rintro ⟨s₁, hw, hws⟩
      obtain ⟨m, rfl, hm, name, hname, hs⟩ := (takesUp_member_iff h).mp hw
      obtain ⟨ms, ps, rfl, hms, hps, hstores'⟩ := ih.mp hws
      refine ⟨m :: ms, (name, m.value) :: ps, rfl, List.forall_mem_cons.mpr ⟨hm, hms⟩, ?_,
        s₁, hs, hstores'⟩
      rw [List.map_cons, List.map_cons, hps, MemberText.pair?_eq_some_iff.mpr ⟨hname, rfl⟩]
    · rintro ⟨ms, ps, heq, hall, hps, hstores'⟩
      cases ms with
      | nil => nomatch heq
      | cons m ms =>
        cases ps with
        | nil => nomatch hps
        | cons p ps =>
          obtain ⟨rfl, rfl⟩ := List.cons.inj heq
          obtain ⟨hp, hps⟩ := List.cons.inj hps
          obtain ⟨hm, hms⟩ := List.forall_mem_cons.mp hall
          obtain ⟨hname, hvalue⟩ := MemberText.pair?_eq_some_iff.mp hp
          obtain ⟨s₁, hs, hstores'⟩ := hstores'
          have htaken := (takesUp_member_iff h).mpr ⟨m, rfl, hm, p.1, hname, hvalue ▸ hs⟩
          exact ⟨s₁, htaken, ih.mpr ⟨ms, ps, rfl, hms, hps, hstores'⟩⟩

/-- What reads an object of which `finish` makes something: what stands behind its brace. -/
abbrev inside (step : String → σ → Reader σ) (start : σ) (finish : σ → Except Cause α) :
    Reader α :=
  skip >>= fun _ => settled objectEnd (objectBody step start >>= fun s =>
    standing (finish s) >>= fun a => closeObject >>= fun _ => pure a)

variable {k : Option Char → Reader α} {start : σ} {finish : σ → Except Cause α} {a : α}

/-- What is read of an object was put together of members of which something is made. -/
theorem object_of_whole (h : ∀ name s, ReadsRest (step name s) (stores name s))
    (hk : k (some '\x7b') = inside step start finish) {w : List Char}
    (hw : (w.dropWhile isSpace).head? = some '\x7b')
    (hread : Document.whole (peekBehindSpace >>= k) (String.ofList w) = .ok a) :
    ∃ (o : MembersText) (ps : List (String × List Char)) (s : σ), o.WellFormed ∧ o.chars = w ∧
      o.Lists ps ∧ StoresAll stores ps start s ∧ finish s = .ok a := by
  obtain ⟨c, d, hread, hfinish⟩ := Document.whole_eq_ok_iff.mp hread
  have hbehind := Document.blanks_of_finish hfinish
  have hcursor : (Cursor.ofString (String.ofList w)).rest = w := String.toList_ofList
  obtain ⟨before, e, hbefore, htext, hread, hspace⟩ := of_peekBehindSpace_ok hread
  rw [hcursor] at htext
  have hbrace : e.rest.head? = some '\x7b' := by
    rwa [htext, Text.dropWhile_append hbefore hspace] at hw
  rw [hbrace, hk] at hread
  obtain ⟨f, hf, hread⟩ := of_skip_ok hbrace hread
  obtain ⟨s, g, hbody, hread⟩ := of_bind_ok (of_settled_ok hread)
  obtain ⟨a', l, hstanding, hread⟩ := of_bind_ok hread
  obtain ⟨hs, rfl⟩ := standing_ok_iff.mp hstanding
  obtain ⟨⟨⟩, l, hclose, hread⟩ := of_bind_ok hread
  obtain ⟨rfl, rfl⟩ := of_pure_ok hread
  obtain ⟨ws, gap, _, hgap, hno, hinner, hend, hchain, rfl⟩ := parts_of_loop
    separates_hasMember (loops_members _) (takesParts_member fun name s => (h name s).local) hbody
  obtain ⟨ms, ps, rfl, hms, hps, hstores'⟩ := (chain_members_iff h).mp hchain
  refine ⟨⟨before, ms, gap, c.rest⟩, ps, _, ⟨hbefore, hms, hgap, ?_, hbehind⟩, ?_, hps, hstores',
    hs⟩
  · exact fun hne => hno (mt List.map_eq_nil_iff.mp hne)
  · rw [htext, hf, hinner, rest_of_closeObject hend hclose]
    rfl

/-- An object that is put together of such members is read. -/
theorem whole_of_object (h : ∀ name s, ReadsRest (step name s) (stores name s))
    (hk : k (some '\x7b') = inside step start finish) {o : MembersText} (ho : o.WellFormed)
    {ps : List (String × List Char)} (hps : o.Lists ps) {s : σ}
    (hstores : StoresAll stores ps start s) (hs : finish s = .ok a) :
    Document.whole (peekBehindSpace >>= k) (String.ofList o.chars) = .ok a := by
  have hchain := (chain_members_iff h).mpr ⟨o.members, ps, rfl, ho.members, hps, hstores⟩
  have hbody := reads_loop separates_hasMember (loops_members _)
    (stops_cons (.inr (.inr (.inr rfl))) o.behind) ho.gap hchain
  have hinside : (inside step start finish).Reads
      ('\x7b' :: (Text.join ',' (o.members.map MemberText.chars) ++ o.gap ++ ['\x7d']))
      o.behind a := by
    refine Reads.bind (s := ['\x7b']) (reads_skip '\x7b' _) (Reads.settled (Reads.bind hbody ?_))
    show (standing (finish s) >>= fun a => closeObject >>= fun _ => pure a).Reads _ _ _
    rw [hs]
    exact Reads.map (fun _ => a) (reads_closeObject o.behind)
  refine Document.whole_of_reads ?_ ho.behind (Reads.of_peek ho.before rfl (hk ▸ hinside))
  simp [MembersText.chars]

theorem whole_object_iff (h : ∀ name s, ReadsRest (step name s) (stores name s))
    (hk : k (some '\x7b') = inside step start finish) {w : List Char}
    (hw : (w.dropWhile isSpace).head? = some '\x7b') :
    Document.whole (peekBehindSpace >>= k) (String.ofList w) = .ok a ↔
      ∃ (o : MembersText) (ps : List (String × List Char)) (s : σ), o.WellFormed ∧ o.chars = w ∧
        o.Lists ps ∧ StoresAll stores ps start s ∧ finish s = .ok a := by
  refine ⟨object_of_whole h hk hw, ?_⟩
  rintro ⟨o, ps, s, ho, rfl, hps, hstores', hs⟩
  exact whole_of_object h hk ho hps hstores' hs

end Container

/-- Of a text that is put together in a certain way nothing else is read than what is made of its
members. -/
theorem MembersText.WellFormed.whole_iff {o : MembersText} (ho : o.WellFormed)
    {step : String → σ → Reader σ} {stores : String → σ → List Char → σ → Prop}
    {k : Option Char → Reader α} {a : α} (h : ∀ name s, ReadsRest (step name s) (stores name s))
    (start : σ) (finish : σ → Except Cause α) (hk : k (some '\x7b') = inside step start finish) :
    Document.whole (peekBehindSpace >>= k) o.text = .ok a ↔
      ∃ ps s, o.Lists ps ∧ StoresAll stores ps start s ∧ finish s = .ok a := by
  constructor
  · intro hread
    obtain ⟨o', ps, s, ho', hchars, hps, hs⟩ := object_of_whole h hk ho.head hread
    obtain rfl := ho'.eq_of_chars ho hchars
    exact ⟨ps, s, hps, hs⟩
  · rintro ⟨ps, s, hps, hstores, hs⟩
    exact whole_of_object h hk ho hps hstores hs

end Json
end CodeQuality
