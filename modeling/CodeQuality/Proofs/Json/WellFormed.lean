import CodeQuality.Proofs.Json.Sole
import CodeQuality.Proofs.Json.Tokens

/-!
# What is passed over is JSON

A text is passed over as a whole document exactly if the grammar of JSON derives it, however deep it
is nested. In one direction the grammar is followed: the parts of a container are passed over one
after the other. In the other the places of values are: what stands between two of them is the text
of a value, or what is left of the parts of a container.

* `Skipped.decodes_value` — the text of a value is passed over.
* `Skipped.spells_of_scans` — what is passed over is the text of a value.
* `Skipped.whole_value_iff` — whole documents.
-/

namespace CodeQuality
namespace Json

open Reader Container

/-- A list of texts each of which is a text of something. -/
theorem exists_map_of_forall {α β : Type} {P : α → Prop} {f : α → β} {ws : List β}
    (h : ∀ w ∈ ws, ∃ x, P x ∧ w = f x) : ∃ xs : List α, ws = xs.map f ∧ ∀ x ∈ xs, P x := by
  induction ws with
  | nil => exact ⟨[], rfl, List.forall_mem_nil P⟩
  | cons w ws ih =>
    obtain ⟨⟨x, hx, rfl⟩, hws⟩ := List.forall_mem_cons.mp h
    obtain ⟨xs, rfl, hxs⟩ := ih hws
    exact ⟨x :: xs, rfl, List.forall_mem_cons.mpr ⟨hx, hxs⟩⟩

/-- Blanks may be put around a document. -/
theorem IsDocument.append {before cs behind : List Char} (hb : Blanks before)
    (h : IsDocument cs) (hb' : Blanks behind) : IsDocument (before ++ (cs ++ behind)) := by
  obtain ⟨⟨lead, core, trail, hlead, htrail⟩, hcore, rfl⟩ := h
  refine ⟨⟨before ++ lead, core, trail ++ behind, ?_, ?_⟩, hcore, ?_⟩
  · exact List.forall_mem_append.mpr ⟨hb, hlead⟩
  · exact List.forall_mem_append.mpr ⟨htrail, hb'⟩
  · simp only [Padded.chars, List.append_assoc]

/-- A number begins with its sign or with a digit. -/
theorem head_of_isNumber {cs : List Char} (h : IsNumber cs) :
    ∃ x xs, cs = x :: xs ∧ (x = '-' || x.isDigit) = true := by
  obtain ⟨sign, whole, fraction, exponent, rfl | rfl, hwhole, -, -, rfl⟩ := h
  · rcases hwhole with rfl | ⟨⟨hne, hdigits⟩, -⟩
    · exact ⟨'0', _, rfl, rfl⟩
    · obtain ⟨x, xs, rfl⟩ := List.exists_cons_of_ne_nil hne
      refine ⟨x, _, rfl, ?_⟩
      rw [hdigits x List.mem_cons_self, Bool.or_true]
  · exact ⟨'-', _, rfl, rfl⟩

/-- A value begins with a character that can begin an item of a list. -/
theorem opens_of_isValue {cs : List Char} (h : IsValue cs) :
    ∃ x xs, cs = x :: xs ∧ OpensItem x := by
  cases h with
  | null | true | false | list | object => exact ⟨_, _, rfl, rfl, by decide⟩
  | number h =>
    obtain ⟨x, xs, rfl, hx⟩ := head_of_isNumber h
    refine ⟨x, xs, rfl, (Document.number_head hx).1, ?_⟩
    rintro rfl
    exact absurd hx (by decide)
  | text h =>
    obtain ⟨rest, -, rfl⟩ := h
    exact ⟨'"', rest, rfl, rfl, by decide⟩

namespace Skipped

/-! ### Containers -/

/-- Is there another part? -/
def Frame.more : Frame → Bool → Reader Bool
  | list => hasItem
  | object => hasMember

/-- What a part of the container begins with. -/
def Frame.Opens : Frame → Char → Prop
  | list => OpensItem
  | object => OpensMember

theorem Frame.separates (frame : Frame) : Separates frame.more frame.Opens frame.close := by
  cases frame with
  | list => exact separates_hasItem
  | object => exact separates_hasMember

theorem Frame.walks (frame : Frame) : Walks frame.more frame.Opens frame.close := by
  cases frame with
  | list => exact walks_hasItem
  | object => exact walks_hasMember

theorem Frame.ne_close {frame : Frame} {x : Char} (h : frame.Opens x) : x ≠ frame.close := by
  cases frame with
  | list => exact h.2
  | object =>
    obtain rfl : x = '"' := h
    decide

theorem Frame.stops_close (frame : Frame) (rest : List Char) : Stops (frame.close :: rest) := by
  cases frame with
  | list => exact stops_cons (.inr (.inr (.inl rfl))) rest
  | object => exact stops_cons (.inr (.inr (.inr rfl))) rest

/-- One part of a container. -/
def part (frame : Frame) : Reader Unit := frame.lead >>= fun _ => value

/-- All parts of a container that are left. -/
def parts (frame : Frame) : (fuel : Nat) → (first : Bool) → Unit → Reader Unit
  | 0, _, _ => failHere frame.atEnd
  | fuel + 1, first, _ => do
    if ← frame.more first then
      part frame
      parts frame fuel false ()
    else return ()

theorem loops_parts (frame : Frame) :
    Loops frame.more (fun _ => part frame) id (parts frame) where
  zero _ _ _ _ h := nomatch h
  succ _ _ _ := rfl

/-- The bracket of a container is a leaf. -/
theorem reads_bracket (frame : Frame) {blanks : List Char} (hb : Blanks blanks)
    (rest : List Char) : leaf.Reads (blanks ++ [frame.bracket]) rest (some frame) := by
  rw [leaf]
  cases frame with
  | list => exact Reads.of_peek hb rfl (Reads.map (fun _ => some Frame.list) (reads_skip '[' rest))
  | object =>
    exact Reads.of_peek hb rfl (Reads.map (fun _ => some Frame.object) (reads_skip '\x7b' rest))

/-- A container is passed over if its parts are. -/
theorem decodes_container (frame : Frame) {ws : List (List Char)} {close : List Char}
    (hclose : Blanks close) (hws : ∀ w ∈ ws, (part frame).TakesUp frame.Opens w ()) :
    value.Decodes (frame.bracket :: (partsChars ws close ++ [frame.close])) () := by
  intro blanks rest hb hrest p
  have hchain : Chain frame.Opens (fun _ => part frame) ws () () := by
    induction ws with
    | nil => rfl
    | cons w ws ih =>
      obtain ⟨hw, hws⟩ := List.forall_mem_cons.mp hws
      exact ⟨(), hw, ih hws⟩
  have hopen := reads_bracket frame hb (partsChars ws close ++ frame.close :: rest) p
  have hread := reads_loop frame.separates (loops_parts frame) (frame.stops_close rest) hclose
    hchain (p.past (blanks ++ [frame.bracket]))
  obtain ⟨_, _, hget, hloop⟩ := of_bind_ok hread
  obtain ⟨rfl, rfl⟩ := Prod.mk.inj (Except.ok.inj hget)
  have hparts := scans_of_loop frame.walks (loops_parts frame) Frame.ne_close
    (fun _ _ hpart => by
      obtain ⟨⟨⟩, d, hlead, hvalue⟩ := of_bind_ok hpart
      exact ⟨d, hlead, value_ok_iff.mp hvalue⟩) hloop
  have hscans := value_ok_iff.mpr (Scans.container hopen hparts)
  have htext : blanks ++ (frame.bracket :: (partsChars ws close ++ [frame.close])) ++ rest =
      blanks ++ [frame.bracket] ++ (partsChars ws close ++ frame.close :: rest) := by
    simp only [List.append_assoc, List.cons_append, List.nil_append]
  have hspace : isSpace frame.close = false := by cases frame <;> rfl
  rw [htext, hscans, Cursor.dropWhile_of_head rfl hspace]
  simp only [Cursor.tail, partsChars, Place.past_append, Place.past_cons, Place.past_nil]

/-- An item of a list. -/
theorem takesUp_item {p : Padded} (hp : IsValue p.core) (h : value.Decodes p.core ()) :
    (part .list).TakesUp OpensItem p.chars () := by
  obtain ⟨lead, core, trail, hlead, htrail⟩ := p
  obtain ⟨x, xs, rfl, hopens⟩ := opens_of_isValue hp
  exact .mk hlead htrail hopens fun rest hrest => h.reads hrest

/-- Name and colon lead to the value of a member. -/
theorem reads_lead (name : Padded) (h : IsQuoted name.core) (rest : List Char) :
    Frame.object.lead.Reads (name.chars ++ [':']) rest () := by
  obtain ⟨lead, _, gap, hlead, hgap⟩ := name
  obtain ⟨cs, hcs, rfl⟩ := h
  have hcolon := Reads.bind (f := fun _ => colon) (Quoted.reads_skipBody hcs _)
    (reads_colon hgap rest)
  have hquote := Reads.bind (f := fun _ => Quoted.skipBody >>= fun _ => colon)
    (reads_skip '"' _) hcolon
  rw [Frame.lead]
  refine Reads.cast (Reads.of_peek (c := '"') hlead rfl hquote) ?_
  simp [Padded.chars]

/-- A member of an object. -/
theorem takesUp_pair {m : Padded × Padded} (hname : IsQuoted m.1.core)
    (h : value.Decodes m.2.core ()) : (part .object).TakesUp OpensMember (pairChars m) () := by
  obtain ⟨⟨lead, core, gap, hlead, hgap⟩, ⟨lead', core', trail, hlead', htrail⟩⟩ := m
  obtain ⟨cs, hcs, rfl⟩ := hname
  have hpart (rest : List Char) (hrest : Stops rest) :
      (part .object).Reads ('"' :: (cs ++ (gap ++ [':'] ++ (lead' ++ core')))) rest () := by
    -- The blanks in front of the name do not belong to what is taken up.
    have hname := reads_lead ⟨[], '"' :: cs, gap, no_blanks, hgap⟩ ⟨cs, hcs, rfl⟩
      (lead' ++ core' ++ rest)
    refine Reads.cast (Reads.bind (f := fun _ => value) hname (h lead' rest hlead' hrest)) ?_
    simp [Padded.chars]
  have hopens : OpensMember '"' := rfl
  have htaken := TakesUp.mk hlead htrail hopens hpart
  simpa [pairChars, Padded.chars] using htaken

/-! ### Leaves -/

theorem reads_leaf_number {cs : List Char} (h : IsNumber cs) {blanks rest : List Char}
    (hb : Blanks blanks) (hrest : Stops rest) : leaf.Reads (blanks ++ cs) rest none := by
  obtain ⟨x, xs, rfl, hx⟩ := head_of_isNumber h
  intro p
  have hcursor : (⟨blanks ++ (x :: xs ++ rest), p⟩ : Cursor).dropWhile isSpace =
      ⟨x :: xs ++ rest, p.past blanks⟩ := by
    refine dropWhile_cursor hb (fun c hc => ?_) p
    obtain rfl := Option.some.inj hc
    exact (Document.number_head hx).1
  rw [List.append_assoc, leaf_number (x := x) (by rw [hcursor]; rfl) hx, hcursor,
    Reads.map (fun _ => none) (NumberText.reads_skipNumber h hrest), Place.past_append]

/-- What is a leaf by the grammar is passed over as one. -/
theorem decodes_leaf {cs : List Char}
    (h : ∀ {blanks rest : List Char}, Blanks blanks → Stops rest →
      leaf.Reads (blanks ++ cs) rest none) : value.Decodes cs () :=
  fun _ _ hb hrest p => value_ok_iff.mpr (.leaf (h hb hrest p))

/-- The text of a value is passed over. -/
theorem decodes_value {cs : List Char} (h : IsValue cs) : value.Decodes cs () := by
  induction h with
  | null =>
    refine decodes_leaf fun {blanks rest} hb hrest => ?_
    rw [leaf]
    exact Reads.of_peek hb rfl (Reads.bind (s := ['n']) (reads_skip 'n' _)
      (Reads.map (fun _ => none) (reads_letters ['u', 'l', 'l'] rest)))
  | true =>
    refine decodes_leaf fun {blanks rest} hb hrest => ?_
    rw [leaf]
    exact Reads.of_peek hb rfl (Reads.bind (s := ['t']) (reads_skip 't' _)
      (Reads.map (fun _ => none) (reads_letters ['r', 'u', 'e'] rest)))
  | false =>
    refine decodes_leaf fun {blanks rest} hb hrest => ?_
    rw [leaf]
    exact Reads.of_peek hb rfl (Reads.bind (s := ['f']) (reads_skip 'f' _)
      (Reads.map (fun _ => none) (reads_letters ['a', 'l', 's', 'e'] rest)))
  | number h => exact decodes_leaf (reads_leaf_number h)
  | text h =>
    obtain ⟨cs, hcs, rfl⟩ := h
    refine decodes_leaf fun {blanks rest} hb hrest => ?_
    rw [leaf]
    exact Reads.of_peek hb rfl (Reads.bind (s := ['"']) (reads_skip '"' _)
      (Reads.map (fun _ => none) (Quoted.reads_skipBody hcs rest)))
  | @list items close hclose hitems ih =>
    refine decodes_container .list hclose fun w hw => ?_
    obtain ⟨p, hp, rfl⟩ := List.mem_map.mp hw
    exact takesUp_item (hitems p hp) (ih p hp)
  | @object members close hclose hnames _ ih =>
    refine decodes_container .object hclose fun w hw => ?_
    obtain ⟨m, hm, rfl⟩ := List.mem_map.mp hw
    exact takesUp_pair (hnames m hm) (ih m hm)

/-! ### What stands between places -/

theorem of_letters_ok {ls : List Char} {c d : Cursor} (h : letters ls c = .ok ((), d)) :
    c.rest = ls ++ d.rest := by
  induction ls generalizing c with
  | nil =>
    obtain ⟨-, rfl⟩ := of_pure_ok h
    rfl
  | cons l ls ih =>
    rw [letters, peek_bind] at h
    generalize ho : c.rest.head? = o at h
    cases o with
    | none => cases h
    | some x =>
      dsimp only at h
      split at h
      · next hx =>
        obtain ⟨e, he, h⟩ := of_skip_ok ho h
        rw [he, ih h, hx]
        rfl
      · cases h

/-- The text of a leaf, or of the bracket of a container. -/
def IsOpened : Option Frame → List Char → Prop
  | none, cs => IsValue cs
  | some frame, cs => cs = [frame.bracket]

theorem of_leaf_ok {c d : Cursor} {opened : Option Frame} (h : leaf c = .ok (opened, d)) :
    ∃ lead core, Blanks lead ∧ IsOpened opened core ∧ c.rest = lead ++ (core ++ d.rest) := by
  rw [leaf] at h
  obtain ⟨lead, e, hlead, htext, h, -⟩ := of_peekBehindSpace_ok h
  have hname {x : Char} {ls : List Char} (hx : e.rest.head? = some x) (hvalue : IsValue (x :: ls))
      (h : (skip >>= fun _ => letters ls >>= fun _ => pure none) e = .ok (opened, d)) :
      ∃ lead core, Blanks lead ∧ IsOpened opened core ∧ c.rest = lead ++ (core ++ d.rest) := by
    obtain ⟨f, hf, h⟩ := of_skip_ok hx h
    obtain ⟨⟨⟩, hletters, rfl⟩ := of_map_ok h
    exact ⟨lead, x :: ls, hlead, hvalue, by rw [htext, hf, of_letters_ok hletters]; rfl⟩
  have hbracket (frame : Frame) (hx : e.rest.head? = some frame.bracket)
      (h : (skip >>= fun _ => pure (some frame)) e = .ok (opened, d)) :
      ∃ lead core, Blanks lead ∧ IsOpened opened core ∧ c.rest = lead ++ (core ++ d.rest) := by
    obtain ⟨f, hf, h⟩ := of_skip_ok hx h
    obtain ⟨rfl, rfl⟩ := of_pure_ok h
    exact ⟨lead, [frame.bracket], hlead, rfl, by rw [htext, hf]; rfl⟩
  generalize ho : e.rest.head? = o at h
  split at h
  · cases h
  · exact hname ho .null h
  · exact hname ho .true h
  · exact hname ho .false h
  · obtain ⟨f, hf, h⟩ := of_skip_ok ho h
    obtain ⟨⟨⟩, hbody, rfl⟩ := of_map_ok h
    obtain ⟨cs, hcs, hrest⟩ := Quoted.of_skipBody_ok hbody
    exact ⟨lead, '"' :: cs, hlead, .text ⟨cs, hcs, rfl⟩, by rw [htext, hf, hrest]; rfl⟩
  · exact hbracket .list ho h
  · exact hbracket .object ho h
  · split at h
    · obtain ⟨⟨⟩, hnumber, rfl⟩ := of_map_ok h
      obtain ⟨cs, hcs, hrest⟩ := NumberText.of_skipNumber_ok hnumber
      exact ⟨lead, cs, hlead, .number hcs, by rw [htext, hrest]⟩
    · cases h

/-- The text of a part: a document, which stands behind a name and a colon in an object. -/
def Frame.IsPart : Frame → List Char → Prop
  | list, cs => IsDocument cs
  | object, cs => ∃ (name : Padded) (value : List Char), IsQuoted name.core ∧ IsDocument value ∧
      cs = name.chars ++ ':' :: value

theorem Frame.IsPart.blanks {frame : Frame} {before cs : List Char} (hb : Blanks before)
    (h : frame.IsPart cs) : frame.IsPart (before ++ cs) := by
  cases frame with
  | list =>
    have hdocument := IsDocument.append hb h no_blanks
    rwa [List.append_nil] at hdocument
  | object =>
    obtain ⟨⟨lead, core, trail, hlead, htrail⟩, value, hname, hvalue, rfl⟩ := h
    refine ⟨⟨before ++ lead, core, trail, ?_, htrail⟩, value, hname, hvalue, ?_⟩
    · exact List.forall_mem_append.mpr ⟨hb, hlead⟩
    · simp only [Padded.chars, List.append_assoc]

/-- What leads to a value makes a part of it. -/
theorem of_lead_ok {frame : Frame} {c d : Cursor} (h : frame.lead c = .ok ((), d)) :
    ∃ lead, c.rest = lead ++ d.rest ∧ ∀ value, IsDocument value → frame.IsPart (lead ++ value) := by
  cases frame with
  | list =>
    obtain ⟨-, rfl⟩ := of_pure_ok h
    exact ⟨[], rfl, fun _ hvalue => hvalue⟩
  | object =>
    rw [Frame.lead] at h
    obtain ⟨lead, e, hlead, htext, h, -⟩ := of_peekBehindSpace_ok h
    generalize ho : e.rest.head? = o at h
    split at h
    · obtain ⟨f, hf, h⟩ := of_skip_ok ho h
      obtain ⟨⟨⟩, g, hbody, hcolon⟩ := of_bind_ok h
      obtain ⟨cs, hcs, hrest⟩ := Quoted.of_skipBody_ok hbody
      obtain ⟨gap, hgap, hend⟩ := of_colon_ok hcolon
      let name : Padded := ⟨lead, '"' :: cs, gap, hlead, hgap⟩
      refine ⟨name.chars ++ [':'], ?_, fun value hvalue => ?_⟩
      · rw [htext, hf, hrest, hend]
        simp only [name, Padded.chars, List.append_assoc, List.cons_append, List.nil_append]
      · refine ⟨name, value, ⟨cs, hcs, rfl⟩, hvalue, ?_⟩
        rw [List.append_assoc]
        rfl
    · cases h
    · cases h

/-- Parts between brackets make the text of a value. -/
theorem isValue_of_parts {frame : Frame} {ws : List (List Char)} {close : List Char}
    (hclose : Blanks close) (h : ∀ w ∈ ws, frame.IsPart w) :
    IsValue (frame.bracket :: (partsChars ws close ++ [frame.close])) := by
  cases frame with
  | list =>
    obtain ⟨items, rfl, hitems⟩ := exists_map_of_forall h
    exact .list hclose hitems
  | object =>
    have hpair (w : List Char) (hw : w ∈ ws) : ∃ m : Padded × Padded,
        (IsQuoted m.1.core ∧ IsValue m.2.core) ∧ w = pairChars m := by
      obtain ⟨name, _, hname, ⟨value, hvalue, rfl⟩, rfl⟩ := h w hw
      exact ⟨(name, value), ⟨hname, hvalue⟩, rfl⟩
    obtain ⟨members, rfl, hmembers⟩ := exists_map_of_forall hpair
    exact .object hclose (fun m hm => (hmembers m hm).1) fun m hm => (hmembers m hm).2

/-- The text between two places: that of a value, or of the parts that are left of a container. -/
def Spells : Option (Frame × Bool) → Cursor → Cursor → Prop
  | none, c, c' => ∃ lead core, Blanks lead ∧ IsValue core ∧ c.rest = lead ++ (core ++ c'.rest)
  | some (frame, true), c, c' => ∃ ws close, (∀ w ∈ ws, frame.IsPart w) ∧ Blanks close ∧
      c.rest = partsChars ws close ++ frame.close :: c'.rest
  | some (frame, false), c, c' => ∃ (trail : List Char) (ws : List (List Char)),
      (∀ w ∈ ws, frame.IsPart w) ∧ Blanks trail ∧
        c.rest = trail ++ (ws.flatMap (',' :: ·) ++ frame.close :: c'.rest)

/-- Up to the next character that is no blank there are only blanks. -/
theorem blanks_before {c : Cursor} {x : Char} (h : (c.dropWhile isSpace).rest.head? = some x) :
    ∃ blanks, Blanks blanks ∧ c.rest = blanks ++ (c.dropWhile isSpace).rest ∧
      (c.dropWhile isSpace).rest = x :: (c.dropWhile isSpace).tail.rest := by
  obtain ⟨blanks, hblanks, htext⟩ := exists_blanks c
  exact ⟨blanks, hblanks, htext, rest_eq_cons_tail h⟩

/-- The next part, with the blanks on both sides of it. -/
theorem isPart_of_spells {frame : Frame} {c d e c' : Cursor}
    (hlead : frame.lead c = .ok ((), d)) (hvalue : Spells none d e)
    (hrest : Spells (some (frame, false)) e c') :
    ∃ (w : List Char) (ws : List (List Char)), frame.IsPart w ∧ (∀ w ∈ ws, frame.IsPart w) ∧
      c.rest = w ++ (ws.flatMap (',' :: ·) ++ frame.close :: c'.rest) := by
  obtain ⟨front, htext, hpart⟩ := of_lead_ok hlead
  obtain ⟨lead, core, hlead, hcore, hd⟩ := hvalue
  obtain ⟨trail, ws, hws, htrail, he⟩ := hrest
  have hdocument : IsDocument (lead ++ core ++ trail) :=
    ⟨⟨lead, core, trail, hlead, htrail⟩, hcore, rfl⟩
  refine ⟨_, ws, hpart _ hdocument, hws, ?_⟩
  rw [htext, hd, he]
  simp only [List.append_assoc]

/-- What is passed over is the text of a value. -/
theorem spells_of_scans {inside : Option (Frame × Bool)} {c c' : Cursor}
    (h : Scans inside c c') : Spells inside c c' := by
  induction h with
  | leaf h => exact of_leaf_ok h
  | container h _ ih =>
    obtain ⟨lead, _, hlead, rfl, htext⟩ := of_leaf_ok h
    obtain ⟨ws, close, hws, hclose, hrest⟩ := ih
    refine ⟨lead, _, hlead, isValue_of_parts hclose hws, ?_⟩
    rw [htext, hrest]
    simp only [List.append_assoc, List.cons_append, List.nil_append]
  | @close frame first c h =>
    obtain ⟨blanks, hblanks, htext, hend⟩ := blanks_before h
    cases first with
    | true => exact ⟨[], blanks, List.forall_mem_nil _, hblanks, by rw [htext, hend]; rfl⟩
    | false => exact ⟨blanks, [], List.forall_mem_nil _, hblanks, by rw [htext, hend]; rfl⟩
  | first h _ hlead _ _ ihvalue ihrest =>
    obtain ⟨blanks, hblanks, htext, -⟩ := blanks_before h
    obtain ⟨w, ws, hw, hws, hrest⟩ := isPart_of_spells hlead ihvalue ihrest
    refine ⟨(blanks ++ w) :: ws, [], List.forall_mem_cons.mpr ⟨hw.blanks hblanks, hws⟩,
      no_blanks, ?_⟩
    rw [htext, hrest]
    simp only [partsChars, join_cons_eq, List.append_assoc, List.append_nil]
  | next h hlead _ _ ihvalue ihrest =>
    obtain ⟨blanks, hblanks, htext, hend⟩ := blanks_before h
    obtain ⟨w, ws, hw, hws, hrest⟩ := isPart_of_spells hlead ihvalue ihrest
    refine ⟨blanks, w :: ws, List.forall_mem_cons.mpr ⟨hw, hws⟩, hblanks, ?_⟩
    rw [htext, hend, hrest]
    simp only [List.flatMap_cons, List.append_assoc, List.cons_append]

/-- Just the documents of the grammar are passed over as a whole. -/
theorem whole_value_iff {w : List Char} :
    Document.whole value (String.ofList w) = .ok () ↔ IsDocument w := by
  constructor
  · intro h
    obtain ⟨c, d, hvalue, hfinish⟩ := Document.whole_eq_ok_iff.mp h
    obtain ⟨lead, core, hlead, hcore, htext⟩ := spells_of_scans (value_ok_iff.mp hvalue)
    have htext : w = lead ++ (core ++ c.rest) := String.toList_ofList.symm.trans htext
    refine ⟨⟨lead, core, c.rest, hlead, Document.blanks_of_finish hfinish⟩, hcore, ?_⟩
    rw [htext]
    exact (List.append_assoc _ _ _).symm
  · rintro ⟨⟨lead, core, trail, hlead, htrail⟩, hcore, rfl⟩
    exact Document.whole_of_reads String.toList_ofList htrail
      (decodes_value hcore lead trail hlead (stops_blanks htrail))

end Skipped
end Json
end CodeQuality
