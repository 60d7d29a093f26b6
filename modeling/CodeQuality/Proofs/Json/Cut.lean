import CodeQuality.Json.Schema.Reader
import CodeQuality.Proofs.Json.Document
import CodeQuality.Proofs.Json.Written

/-!
# Values cut out of a document

What a value takes off a document does not depend on what follows it. So it can be cut out: it is
read alone as it is read inside, whether it is built or only passed over.
-/

namespace CodeQuality
namespace Json

open Reader

variable {α : Type}

namespace Document

/-- A value that holds no others is read as a whole before it is looked at; a container is opened
by what looks at it. -/
theorem takes_leaf_bind {k : Leaf → Reader α} (hvalue : ∀ v, Local Stops (k (.value v)))
    (hlist : TakesAt (some '[') Stops (k .list))
    (hobject : TakesAt (some '\x7b') Stops (k .object)) : Takes Stops (leaf >>= k) := by
  rw [leaf, bind_assoc]
  refine Takes.peekBehindSpace fun o ho => ?_
  have hname : ∀ {x : Char} (ls : List Char) (v : Value), TakesAt (some x) Stops
      ((skip >>= fun _ => letters ls >>= fun _ => pure (.value v)) >>= k) := by
    intro x ls v
    simp only [bind_assoc, pure_bind]
    exact TakesAt.behind ((local_letters ls).anywhere.bind fun _ => hvalue v)
  split
  · exact TakesAt.failHere_bind _ _
  · exact hname _ _
  · exact hname _ _
  · exact hname _ _
  · simp only [bind_assoc, pure_bind]
    exact TakesAt.behind (Quoted.takes_body.anywhere.local.bind fun s => hvalue (.text s))
  · simpa only [pure_bind] using hlist
  · simpa only [pure_bind] using hobject
  · split
    · simp only [bind_assoc, pure_bind]
      exact NumberText.takes_read.bind (fun n => hvalue (.number n)) _
    · exact TakesAt.failAhead_bind _ _

theorem takes_value : ∀ levels : Nat, Takes Stops (value levels)
  | 0 => by
    rw [value]
    refine takes_leaf_bind (fun v => Local.pure v) ?_ ?_ <;> exact TakesAt.failAhead _
  | levels + 1 => by
    have ih := takes_value levels
    rw [value]
    refine takes_leaf_bind (fun v => Local.pure v) (TakesAt.behind ?_) (TakesAt.behind ?_)
    · have hitems := Container.local_listBody ih
      refine (Takes.settled (hitems.takes fun vs => ?_) _).local
      exact Container.takes_closeList.anywhere.bind fun _ => Local.pure _
    · have hmembers : Local Nowhere (Container.objectBody (memberStep levels) []) := by
        refine Container.local_objectBody (fun name members => ?_) []
        exact Container.takes_colon.anywhere.local.bind fun _ => ih.local.bind fun v => Local.pure _
      refine (Takes.settled (hmembers.takes fun vs => ?_) _).local
      exact Container.takes_closeObject.anywhere.bind fun _ => Local.pure _

end Document

namespace Skipped

theorem takes_leaf : Takes Stops leaf := by
  rw [leaf]
  refine Takes.peekBehindSpace fun o ho => ?_
  have hname : ∀ {x : Char} (ls : List Char), TakesAt (some x) Stops
      (skip >>= fun _ => letters ls >>= fun _ => pure (none : Option Frame)) := fun ls =>
    TakesAt.behind ((local_letters ls).anywhere.bind fun _ => Local.pure _)
  split
  · exact TakesAt.failHere _
  · exact hname _
  · exact hname _
  · exact hname _
  · exact TakesAt.behind (Quoted.takes_skipBody.anywhere.local.bind fun _ => Local.pure _)
  · exact TakesAt.behind (Local.pure _)
  · exact TakesAt.behind (Local.pure _)
  · split
    · exact NumberText.takes_skipNumber.bind (fun _ => Local.pure _) _
    · exact TakesAt.failAhead _

theorem local_lead (frame : Frame) : Local Anywhere frame.lead := by
  cases frame with
  | list => exact Local.pure ()
  | object =>
    have hname : Local Anywhere (Quoted.skipBody >>= fun _ => Container.colon) :=
      Quoted.takes_skipBody.local.bind fun _ => Container.takes_colon.local
    refine (Takes.peekBehindSpace fun o ho => ?_).local
    split
    · exact TakesAt.behind hname
    · exact TakesAt.failAhead_bind _ _
    · exact TakesAt.failHere_bind _ _

/-- What leads to another value of a container leaves it open. -/
theorem open_of_lead {frame : Frame} {frames left : List Frame} {c c' : Cursor}
    (h : (frame.lead >>= fun _ => pure (frame :: frames)) c = .ok (left, c')) : left ≠ [] := by
  obtain ⟨_, _, -, h⟩ := of_bind_ok h
  obtain ⟨rfl, -⟩ := Prod.mk.inj (Except.ok.inj h)
  exact List.cons_ne_nil _ _

/-- Once all containers are closed, it does not matter what follows; as long as one is open, another
value does. -/
theorem took_closings {behindValue : Bool} {frames left : List Frame} {c c' : Cursor}
    (h : closings behindValue frames c = .ok (left, c')) :
    ∃ used, Took (fun _ => left = []) (closings behindValue frames) c left c' used := by
  induction frames generalizing behindValue c with
  | nil =>
    obtain ⟨used, hused⟩ := Local.pure ([] : List Frame) _ c left c' rfl h
    rw [closings]
    exact ⟨used, hused⟩
  | cons frame frames ih =>
    have hlead : Local Nowhere (frame.lead >>= fun _ => pure (frame :: frames)) :=
      (local_lead frame).anywhere.bind fun _ => Local.pure _
    rw [closings] at h ⊢
    obtain ⟨o, d, hd, h⟩ := of_bind_ok h
    obtain ⟨used, hused⟩ := local_peekBehindSpace _ c o d rfl hd
    obtain ⟨ho, rfl⟩ := Prod.mk.inj (Except.ok.inj hd)
    split at h
    · nomatch h
    next x =>
    split at h
    · next hcomma =>
      -- Behind a comma another value comes, so this container stays open.
      have htakes : TakesAt (some x) Nowhere (skip >>= fun _ => frame.lead >>= fun _ =>
        pure (frame :: frames)) := TakesAt.behind hlead
      obtain ⟨more, hne, hmore⟩ := htakes _ left c' ho h
      obtain ⟨d, -, h⟩ := of_skip_ok ho h
      refine ⟨used ++ more, hused.bind ?_ fun hnil => absurd hnil hne⟩
      dsimp only
      rw [if_pos hcomma]
      exact hmore.mono fun _ hnil => absurd hnil (open_of_lead h)
    next hcomma =>
    split at h
    · next hclose =>
      -- This one is closed, and the closings go on with those around it.
      obtain ⟨d, hd, h⟩ := of_skip_ok ho h
      obtain ⟨more, hmore⟩ := ih h
      refine ⟨used ++ x :: more, hused.bind ?_ fun hnil => absurd hnil (List.cons_ne_nil _ _)⟩
      dsimp only
      rw [if_neg hcomma, if_pos hclose]
      refine ⟨?_, fun rest hrest => Reads.bind (s := [x]) (reads_skip x _) (hmore.reads rest hrest)⟩
      rw [hd, hmore.text]
      rfl
    next hclose =>
    split at h
    · nomatch h
    · next hvalue =>
      -- The container has just been opened, and its first value comes.
      obtain ⟨more, hmore⟩ := hlead _ _ left c' rfl h
      refine ⟨used ++ more, hused.bind ?_ fun _ _ hnil => absurd hnil (open_of_lead h)⟩
      dsimp only
      rw [if_neg hcomma, if_neg hclose, if_neg hvalue]
      exact hmore.mono fun _ hnil => absurd hnil (open_of_lead h)

/-- A round of the loop. -/
theorem values_succ (n : Nat) (frames : List Frame) :
    values (n + 1) frames = leaf >>= fun opened =>
      closings opened.isNone (opened.toList ++ frames) >>= fun left =>
        if left.isEmpty then pure () else values n left := by
  rw [values]
  congr
  funext opened
  cases opened <;> rfl

/-- Every round takes up a value, and so there is room for all of them. -/
theorem took_values {n : Nat} {frames : List Frame} {u : Unit} {c c' : Cursor}
    (h : values n frames c = .ok (u, c')) :
    ∃ used, used ≠ [] ∧ ∀ m, used.length ≤ m → Took Stops (values m frames) c u c' used := by
  induction n generalizing frames c with
  | zero => nomatch h
  | succ n ih =>
    rw [values_succ] at h
    obtain ⟨opened, d, hopened, h⟩ := of_bind_ok h
    obtain ⟨left, e, hleft, h⟩ := of_bind_ok h
    obtain ⟨used, hne, hused⟩ := takes_leaf _ c opened d rfl hopened
    obtain ⟨more, hmore⟩ := took_closings hleft
    have hpos := List.length_pos_iff.mpr hne
    -- Either everything is closed and this was the last round, or another value is needed.
    cases left with
    | nil =>
      obtain ⟨rfl, rfl⟩ := Prod.mk.inj (Except.ok.inj h)
      refine ⟨used ++ more, List.append_ne_nil_of_left_ne_nil hne more, fun m hm => ?_⟩
      rw [List.length_append] at hm
      obtain ⟨m, rfl⟩ : ∃ k, m = k + 1 := ⟨m - 1, by omega⟩
      have hend := hmore.bind (f := fun left => if left.isEmpty then pure () else values m left)
        (Took.pure (S := Stops) () e) fun _ _ _ => rfl
      have hround := hused.bind (f := fun opened =>
        closings opened.isNone (opened.toList ++ frames) >>= fun left =>
          if left.isEmpty then pure () else values m left) hend fun _ _ hrest => hrest
      rwa [List.append_nil, ← values_succ] at hround
    | cons frame left =>
      obtain ⟨later, hlater, hih⟩ := ih h
      refine ⟨used ++ (more ++ later), List.append_ne_nil_of_left_ne_nil hne _, fun m hm => ?_⟩
      rw [List.length_append, List.length_append] at hm
      obtain ⟨m, rfl⟩ : ∃ k, m = k + 1 := ⟨m - 1, by omega⟩
      have hnext := hmore.bind (f := fun left => if left.isEmpty then pure () else values m left)
        (hih m (by omega)) fun hnil => absurd hnil hlater
      have hround := hused.bind (f := fun opened =>
        closings opened.isNone (opened.toList ++ frames) >>= fun left =>
          if left.isEmpty then pure () else values m left) hnext fun _ _ hrest => hrest
      rwa [← values_succ] at hround

theorem takes_value : Takes Stops value := by
  intro o c u c' hc h
  obtain ⟨_, _, hget, h⟩ := of_bind_ok h
  obtain ⟨rfl, rfl⟩ := Prod.mk.inj (Except.ok.inj hget)
  obtain ⟨used, hne, hused⟩ := took_values h
  refine ⟨used, hne, (hused _ (Nat.le_refl _)).text, fun rest hrest => ?_⟩
  refine Reads.get_bind fun p => (hused _ ?_).reads rest hrest
  rw [List.length_append]
  omega

end Skipped

/-! ### Documents of their own -/

namespace Document

theorem blanks_of_finish {c d : Cursor} (h : finish c = .ok ((), d)) :
    Blanks c.rest := by
  rw [finish] at h
  obtain ⟨blanks, e, hblanks, htext, h, -⟩ := of_peekBehindSpace_ok h
  generalize ho : e.rest.head? = o at h
  split at h
  · rw [htext, List.head?_eq_none_iff.mp ho, List.append_nil]
    exact hblanks
  · exact absurd h (failAhead_ne_ok _ _ _)

/-- What takes up a whole document takes as much in front of anything that may follow a value. -/
theorem of_whole {reader : Reader α} (h : Takes Stops reader) {document : String} {a : α}
    (hw : whole reader document = .ok a) :
    ∃ used blanks, document.toList = used ++ blanks ∧ Blanks blanks ∧ used ≠ [] ∧
      ∀ rest, Stops rest → reader.Reads used rest a := by
  obtain ⟨c, d, hread, hfinish⟩ := whole_eq_ok_iff.mp hw
  obtain ⟨used, hne, htext, hreads⟩ := h _ _ a c rfl hread
  refine ⟨used, c.rest, htext, blanks_of_finish hfinish, hne, fun rest hstops => ?_⟩
  exact hreads rest (.inr hstops)

end Document

/-- Does the reader read values? It passes over blanks in front of them, takes something that does
not depend on what follows, and no value begins with a closing bracket. -/
structure Reader.ReadsValues (reader : Reader α) : Prop where
  takes : Takes Stops reader
  passes {blanks : List Char} (hb : Blanks blanks) (cs : List Char) (p : Place) :
    reader ⟨blanks ++ cs, p⟩ = reader ⟨cs, p.past blanks⟩
  opens {cs : List Char} {p : Place} {r : α × Cursor} (h : reader ⟨']' :: cs, p⟩ = .ok r) : False

namespace Reader

theorem peekBehindSpace_bind_blanks {f : Option Char → Reader α} {blanks : List Char}
    (hb : Blanks blanks) (cs : List Char) (p : Place) :
    (peekBehindSpace >>= f) ⟨blanks ++ cs, p⟩ = (peekBehindSpace >>= f) ⟨cs, p.past blanks⟩ := by
  have hcursor : (⟨blanks ++ cs, p⟩ : Cursor).dropWhile isSpace =
      (⟨cs, p.past blanks⟩ : Cursor).dropWhile isSpace := by
    simp only [Cursor.dropWhile, List.dropWhile_append_of_pos hb, List.takeWhile_append_of_pos hb,
      Place.past, List.foldl_append]
  show f _ _ = f _ _
  rw [hcursor]

variable {β : Type}

/-- What is made of a value is read as the value is. -/
theorem ReadsValues.bind {reader : Reader α} (h : reader.ReadsValues) {f : α → Reader β}
    (hf : ∀ a, Local Stops (f a)) : (reader >>= f).ReadsValues where
  takes := h.takes.bind hf
  passes hb cs p := by
    show (reader _ >>= fun r => f r.1 r.2) = (reader _ >>= fun r => f r.1 r.2)
    rw [h.passes hb]
  opens hr := by
    obtain ⟨a, d, ha, -⟩ := of_bind_ok hr
    exact h.opens ha

/-- The text of a part is a document of its own. -/
theorem ReadsValues.takesUp_iff {reader : Reader α} (h : reader.ReadsValues) {w : List Char}
    {a : α} : reader.TakesUp Container.OpensItem w a ↔
      Document.whole reader (String.ofList w) = .ok a := by
  constructor
  · rintro ⟨hlead, htrail, -, hreads⟩
    next lead trail xs x =>
    refine Document.whole_of_reads (String.toList_ofList) htrail fun p => ?_
    rw [List.append_assoc, h.passes hlead, hreads trail (stops_blanks htrail), Place.past_append]
  · intro hw
    obtain ⟨used, trail, htext, htrail, -, hreads⟩ := Document.of_whole h.takes hw
    rw [String.toList_ofList] at htext
    -- The blanks in front are passed over, and reading goes on where a value begins.
    have hlead : Blanks (used.takeWhile isSpace) :=
      fun c hc => List.all_eq_true.mp List.all_takeWhile c hc
    have hused : used = used.takeWhile isSpace ++ used.dropWhile isSpace :=
      List.takeWhile_append_dropWhile.symm
    have hread := hreads [] stops_nil ⟨1, 0⟩
    rw [List.append_nil] at hread
    rw [hused, h.passes hlead] at hread
    obtain ⟨core, hne, htook⟩ := h.takes _ _ a _ rfl hread
    obtain ⟨x, xs, rfl⟩ := List.exists_cons_of_ne_nil hne
    -- No blank is left in front of it, and a bracket would not have been read.
    have hcore : used.dropWhile isSpace = x :: xs := htook.text.trans (List.append_nil _)
    have hopens : Container.OpensItem x := by
      refine ⟨isSpace_of_dropWhile used x (by rw [hcore]; rfl), ?_⟩
      rintro rfl
      rw [hcore] at hread
      exact h.opens hread
    rw [htext, hused, hcore]
    exact .mk hlead htrail hopens fun rest hstops => htook.reads rest (.inr hstops)

end Reader

/-! ### Values -/

namespace Document

theorem readsValues_value (levels : Nat) : (value levels).ReadsValues where
  takes := takes_value levels
  passes hb cs p := by
    cases levels <;> rw [value, leaf, bind_assoc] <;> exact peekBehindSpace_bind_blanks hb cs p
  opens {cs p r} h := by
    have hleaf : leaf ⟨']' :: cs, p⟩ = failAhead .valueExpected ⟨']' :: cs, p⟩ := rfl
    have hvalue : value levels ⟨']' :: cs, p⟩ = failAhead .valueExpected ⟨']' :: cs, p⟩ := by
      cases levels <;> rw [value, bind_of_error hleaf] <;> rfl
    exact failAhead_ne_ok _ _ r (hvalue.symm.trans h)

/-- Only a quote leads to a text. -/
theorem body_of_value {levels : Nat} {c c' : Cursor} {s : String}
    (h : value levels c = .ok (.text s, c')) :
    ∃ blanks d, Blanks blanks ∧ c.rest = blanks ++ '"' :: d.rest ∧ Quoted.body d = .ok (s, c') := by
  obtain ⟨w, hw, hcanonical⟩ := value_ok_iff.mp h
  cases stands_of_written hw with
  | list | object => nomatch hcanonical
  | leaf hleaf =>
    obtain ⟨x, hx, hmeets⟩ := meets_of_leaf hleaf
    cases hmeets with
    | text hbody =>
      obtain rfl := Value.text.inj hcanonical
      obtain ⟨blanks, hblanks, htext⟩ := exists_blanks c
      refine ⟨blanks, (c.dropWhile isSpace).tail, hblanks, ?_, hbody⟩
      rw [← rest_eq_cons_tail hx]
      exact htext
    | _ => nomatch hcanonical

/-- The document of a text consists of its quotes and of what stands between them. -/
theorem value_read_text_iff {label : List Char} {s : String} :
    Value.read (String.ofList label) = .ok (.text s) ↔
      ∃ lead cs trail, label = lead ++ '"' :: cs ++ trail ∧ Blanks lead ∧ Blanks trail ∧
        ∀ rest, Quoted.body.Reads cs rest s := by
  constructor
  · intro h
    obtain ⟨hlead, htrail, hopens, hreads⟩ := (readsValues_value maxLevels).takesUp_iff.mpr h
    next lead trail xs x =>
    obtain ⟨blanks, d, hblanks, htext, hbody⟩ :=
      body_of_value (hreads [] stops_nil ⟨1, 0⟩)
    -- No blank comes first, so the value begins with the quote.
    cases blanks with
    | cons y blanks =>
      obtain ⟨rfl, -⟩ := List.cons.inj htext
      exact absurd (hblanks x List.mem_cons_self) (Bool.eq_false_iff.mp hopens.1)
    | nil =>
      obtain ⟨rfl, hxs⟩ := List.cons.inj htext
      obtain ⟨used, hused⟩ := Quoted.takes_body.local _ d s _ rfl hbody
      have hused' : xs ++ [] = used ++ [] := hxs.trans hused.text
      obtain rfl := List.append_cancel_right hused'
      exact ⟨lead, xs, trail, rfl, hlead, htrail, fun rest => hused.reads rest (.inr trivial)⟩
  · rintro ⟨lead, cs, trail, rfl, hlead, htrail, hbody⟩
    have hread := value_of_written (written_of_leaf (leaf_quote hbody) maxLevels)
    exact whole_of_reads String.toList_ofList htrail
      (hread lead trail hlead (stops_blanks htrail))

end Document

/-! ### More levels -/

/-- What `reader` reads, `other` reads in the same way. -/
def Reader.Below (reader other : Reader α) : Prop := ∀ c r, reader c = .ok r → other c = .ok r

namespace Reader

variable {β σ : Type} {reader other : Reader α} {f g : α → Reader β}

theorem Below.refl (reader : Reader α) : reader.Below reader := fun _ _ h => h

theorem Below.bind (h : reader.Below other) (hf : ∀ a, (f a).Below (g a)) :
    (reader >>= f).Below (other >>= g) := by
  intro c r hr
  obtain ⟨a, d, ha, hb⟩ := of_bind_ok hr
  rw [bind_of_ok (h c _ ha)]
  exact hf a d r hb

theorem Below.settled (h : reader.Below other) (finish : Cursor → Cursor) :
    (Reader.settled finish reader).Below (Reader.settled finish other) := by
  intro c r hr
  rw [Reader.settled] at hr ⊢
  split at hr
  · next heq =>
    rw [h c _ heq]
    exact hr
  · cases hr

theorem Below.loop {more : Bool → Reader Bool} {part later : σ → Reader σ} {out : σ → β}
    {loop loop' : Nat → Bool → σ → Reader β} (hloop : Container.Loops more part out loop)
    (hloop' : Container.Loops more later out loop') (h : ∀ s, (part s).Below (later s)) (n : Nat)
    (first : Bool) (s : σ) : (loop n first s).Below (loop' n first s) := by
  induction n generalizing first s with
  | zero => exact fun c r hr => absurd hr (hloop.zero first s c r)
  | succ n ih =>
    rw [hloop.succ, hloop'.succ]
    refine Below.bind (Below.refl _) fun another => ?_
    cases another with
    | false => exact Below.refl _
    | true => exact Below.bind (h s) fun s' => ih false s'

end Reader

namespace Document

/-- A value is read in the same way where more containers may be opened. -/
theorem below_value_succ : ∀ levels : Nat, (value levels).Below (value (levels + 1))
  | 0 => by
    rw [value, value]
    refine Below.bind (Below.refl _) fun l => ?_
    cases l with
    | value v => exact Below.refl _
    | list => exact fun c r h => absurd h (failAhead_ne_ok _ c r)
    | object => exact fun c r h => absurd h (failAhead_ne_ok _ c r)
  | levels + 1 => by
    have ih := below_value_succ levels
    rw [value, value]
    refine Below.bind (Below.refl _) fun l => ?_
    cases l with
    | value v => exact Below.refl _
    | list =>
      refine Below.bind (Below.refl _) fun _ => ?_
      refine Below.settled (Below.bind ?_ fun _ => Below.refl _) _
      refine Below.bind (Below.refl _) fun c => ?_
      exact Below.loop (Container.loops_items _) (Container.loops_items _)
        (fun read => ih.bind fun v => Below.refl _) _ true []
    | object =>
      refine Below.bind (Below.refl _) fun _ => ?_
      refine Below.settled (Below.bind ?_ fun _ => Below.refl _) _
      refine Below.bind (Below.refl _) fun c => ?_
      have hloops (step : String → List (String × Value) → Reader (List (String × Value))) :=
        Container.loops_members step
      refine Below.loop (hloops _) (hloops _) (fun ms => ?_) _ true []
      refine Below.bind (Below.refl _) fun _ => Below.bind (Below.refl _) fun name => ?_
      exact Below.bind (Below.refl _) fun _ => ih.bind fun v => Below.refl _

theorem below_value {levels levels' : Nat} (h : levels ≤ levels') :
    (value levels).Below (value levels') := by
  induction h with
  | refl => exact Below.refl _
  | step _ ih => exact fun c r hr => below_value_succ _ c r (ih c r hr)

theorem whole_of_below {reader other : Reader α} (h : reader.Below other) {document : String}
    {a : α} (hw : whole reader document = .ok a) : whole other document = .ok a := by
  obtain ⟨c, d, hread, hfinish⟩ := whole_eq_ok_iff.mp hw
  exact whole_eq_ok_iff.mpr ⟨c, d, h _ _ hread, hfinish⟩

end Document

/-! ### What is made of a value -/

namespace Reader

variable {β : Type}

theorem standing_ok_iff {x : Except Cause β} {b : β} {c c' : Cursor} :
    standing x c = .ok (b, c') ↔ x = .ok b ∧ c = c' := by
  cases x with
  | error cause => exact ⟨(fun h => nomatch h), fun h => nomatch h.1⟩
  | ok b' =>
    constructor
    · intro h
      obtain ⟨rfl, rfl⟩ := Prod.mk.inj (Except.ok.inj h)
      exact ⟨rfl, rfl⟩
    · rintro ⟨⟨⟩, rfl⟩
      rfl

theorem local_standing (x : Except Cause β) : Local Anywhere (standing x) := by
  cases x with
  | error cause => exact fun _ => (TakesAt.fail cause).localAt
  | ok b => exact Local.pure b

theorem whole_standing_iff {reader : Reader α} {f : α → Except Cause β} {document : String}
    {b : β} :
    Document.whole (reader >>= fun a => standing (f a)) document = .ok b ↔
      ∃ a, Document.whole reader document = .ok a ∧ f a = .ok b := by
  constructor
  · intro h
    obtain ⟨c, d, hread, hfinish⟩ := Document.whole_eq_ok_iff.mp h
    obtain ⟨a, e, ha, hstanding⟩ := of_bind_ok hread
    obtain ⟨hf, rfl⟩ := standing_ok_iff.mp hstanding
    exact ⟨a, Document.whole_eq_ok_iff.mpr ⟨e, d, ha, hfinish⟩, hf⟩
  · rintro ⟨a, h, hf⟩
    obtain ⟨c, d, hread, hfinish⟩ := Document.whole_eq_ok_iff.mp h
    refine Document.whole_eq_ok_iff.mpr ⟨c, d, ?_, hfinish⟩
    rw [bind_of_ok hread]
    exact standing_ok_iff.mpr ⟨hf, rfl⟩

end Reader

end Json
end CodeQuality
