import CodeQuality.Json.Document
import CodeQuality.Proofs.Json.Members
import CodeQuality.Proofs.Json.Parts

/-!
# Values as they are written

`Document.value` sorts the members of an object, and of several with one name the last counts.
`Document.written` reads the same documents and keeps every object as it stands there: what
`Document.value` reads is this value with its members sorted. In it one can see whether an object
repeats a name.

* `Document.value_eq_written` — the two readers take the same and fail in the same way.
* `Document.Meets` — which leaf the first character leads to.
* `Document.Stands` — a value at its place in a document, constructor by constructor.
* `Value.Distinct` — no object repeats a name.
-/

namespace CodeQuality
namespace Json

open Reader

variable {α β σ ι : Type}

/-! ### Readers at a cursor -/

namespace Cursor

theorem dropWhile_dropWhile (p : Char → Bool) (c : Cursor) :
    (c.dropWhile p).dropWhile p = c.dropWhile p := by
  have hhead : ∀ x ∈ (c.rest.dropWhile p).head?, p x = false := by
    intro x hx
    have h := List.head?_dropWhile_not p c.rest
    rw [hx] at h
    exact h
  have hcursor := dropWhile_cursor (List.forall_mem_nil _) hhead (c.dropWhile p).place
  exact hcursor

/-- Nothing is dropped in front of a character that is kept. -/
theorem dropWhile_of_head {p : Char → Bool} {c : Cursor} {x : Char} (hx : c.rest.head? = some x)
    (hp : p x = false) : c.dropWhile p = c := by
  obtain ⟨cs, hcs⟩ := List.head?_eq_some_iff.mp hx
  obtain ⟨_, place⟩ := c
  obtain rfl := hcs
  simp only [dropWhile, List.dropWhile_cons, List.takeWhile_cons, hp, Bool.false_eq_true, if_false,
    List.foldl_nil]

/-- Where the first character is dropped anyway, it may be passed over before. -/
theorem dropWhile_tail {p : Char → Bool} {c : Cursor} (h : c.rest.head?.any p = true) :
    c.tail.dropWhile p = c.dropWhile p := by
  obtain ⟨cs, place⟩ := c
  cases cs with
  | nil => rfl
  | cons x cs =>
    have hx : p x = true := h
    simp only [dropWhile, tail, List.dropWhile_cons, List.takeWhile_cons, hx, if_true,
      List.foldl_cons]

end Cursor

namespace Reader

/-- What is made of something that has been read. -/
theorem of_map_ok {reader : Reader α} {f : α → β} {c c' : Cursor} {b : β}
    (h : (reader >>= fun a => pure (f a)) c = .ok (b, c')) :
    ∃ a, reader c = .ok (a, c') ∧ b = f a := by
  obtain ⟨a, d, ha, h⟩ := of_bind_ok h
  obtain ⟨rfl, rfl⟩ := Prod.mk.inj (Except.ok.inj h)
  exact ⟨a, ha, rfl⟩

end Reader

namespace Document

/-- Reads a value as it stands: every object with its members in their order, all of them. -/
def written : (levels : Nat) → Reader Value
  | 0 => do
    match ← leaf with
    | .value v => return v
    | _ => failAhead .tooDeep
  | levels + 1 => do
    match ← leaf with
    | .value v => return v
    | .list => do
      skip
      settled Container.listEnd do
        let vs ← Container.listBody (written levels)
        Container.closeList
        return .list vs
    | .object => do
      skip
      settled Container.objectEnd do
        let step name members := do
          Container.colon
          return (name, ← written levels) :: members
        let members ← Container.objectBody step []
        Container.closeObject
        return .object members.reverse

/-! ### Leaves -/

/-- What a leaf is read from, when `x` is the first character at `d`: a container is left where it
is, and anything else is taken up to `c'`. -/
inductive Meets : Leaf → (x : Char) → (d c' : Cursor) → Prop where
  | null {d c' : Cursor} (h : (skip >>= fun _ => letters ['u', 'l', 'l']) d = .ok ((), c')) :
    Meets (.value .null) 'n' d c'
  | true {d c' : Cursor} (h : (skip >>= fun _ => letters ['r', 'u', 'e']) d = .ok ((), c')) :
    Meets (.value (.flag true)) 't' d c'
  | false {d c' : Cursor} (h : (skip >>= fun _ => letters ['a', 'l', 's', 'e']) d = .ok ((), c')) :
    Meets (.value (.flag false)) 'f' d c'
  | text {d c' : Cursor} {s : String} (h : (skip >>= fun _ => Quoted.body) d = .ok (s, c')) :
    Meets (.value (.text s)) '"' d c'
  | list {d : Cursor} : Meets .list '[' d d
  | object {d : Cursor} : Meets .object '\x7b' d d
  | number {d c' : Cursor} {x : Char} {n : Number} (hx : (x = '-' || x.isDigit) = true)
    (h : NumberText.read d = .ok (n, c')) : Meets (.value (.number n)) x d c'

theorem meets_of_leaf {c c' : Cursor} {l : Leaf} (h : leaf c = .ok (l, c')) :
    ∃ x, (c.dropWhile isSpace).rest.head? = some x ∧ Meets l x (c.dropWhile isSpace) c' := by
  have hname {d : Cursor} {ls : List Char} {v : Value}
      (h : (skip >>= fun _ => letters ls >>= fun _ => pure (Leaf.value v)) d = .ok (l, c')) :
      l = .value v ∧ (skip >>= fun _ => letters ls) d = .ok ((), c') := by
    rw [← bind_assoc] at h
    obtain ⟨⟨⟩, hletters, heq⟩ := of_map_ok h
    exact ⟨heq, hletters⟩
  rw [leaf] at h
  obtain ⟨o, d, hpeek, h⟩ := of_bind_ok h
  obtain ⟨rfl, rfl⟩ := Prod.mk.inj (Except.ok.inj hpeek)
  generalize c.dropWhile isSpace = d at h ⊢
  generalize d.rest.head? = o at h ⊢
  split at h
  · cases h
  · obtain ⟨rfl, hletters⟩ := hname h
    exact ⟨_, rfl, .null hletters⟩
  · obtain ⟨rfl, hletters⟩ := hname h
    exact ⟨_, rfl, .true hletters⟩
  · obtain ⟨rfl, hletters⟩ := hname h
    exact ⟨_, rfl, .false hletters⟩
  · rw [← bind_assoc] at h
    obtain ⟨s, hbody, rfl⟩ := of_map_ok h
    exact ⟨_, rfl, .text hbody⟩
  · obtain ⟨rfl, rfl⟩ := Prod.mk.inj (Except.ok.inj h)
    exact ⟨_, rfl, .list⟩
  · obtain ⟨rfl, rfl⟩ := Prod.mk.inj (Except.ok.inj h)
    exact ⟨_, rfl, .object⟩
  · split at h
    · next hx =>
      obtain ⟨n, hread, rfl⟩ := of_map_ok h
      exact ⟨_, rfl, .number hx hread⟩
    · cases h

/-- A leaf has no members that could be sorted. -/
theorem canonical_of_leaf {c c' : Cursor} {v : Value} (h : leaf c = .ok (.value v, c')) :
    v.canonical = v := by
  obtain ⟨x, -, hmeets⟩ := meets_of_leaf h
  cases hmeets <;> rfl

end Document

/-! ### The same documents -/

namespace Reader

/-- What comes behind a reader matters only where it comes to. -/
theorem bind_congr_ok {reader : Reader α} {f g : α → Reader β} {c : Cursor}
    (h : ∀ a d, reader c = .ok (a, d) → f a d = g a d) :
    (reader >>= f) c = (reader >>= g) c := by
  cases hr : reader c with
  | error e => rw [bind_of_error hr, bind_of_error hr]
  | ok r =>
    obtain ⟨a, d⟩ := r
    rw [bind_of_ok hr, bind_of_ok hr]
    exact h a d hr

theorem map_settled (f : α → β) (finish : Cursor → Cursor) (reader : Reader α) :
    f <$> settled finish reader = settled finish (f <$> reader) := by
  funext c
  have hmap : (f <$> reader) c = reader c >>= fun r => .ok (f r.1, r.2) := rfl
  show (settled finish reader c >>= fun r => .ok (f r.1, r.2)) = settled finish (f <$> reader) c
  unfold settled
  rw [hmap]
  cases reader c <;> rfl

end Reader

namespace Container

/-- What is made of every item is made of all of them. -/
theorem items_map (f : α → β) (item : Reader α) (n : Nat) (first : Bool) (read : List α) :
    items (f <$> item) n first (read.map f) = List.map f <$> items item n first read := by
  induction n generalizing first read with
  | zero => rfl
  | succ n ih =>
    rw [items, items, map_bind]
    congr
    funext another
    cases another with
    | false => simp only [Bool.false_eq_true, if_false, map_pure, List.map_reverse]
    | true =>
      have ih (a : α) : items (f <$> item) n false (f a :: read.map f) =
          List.map f <$> items item n false (a :: read) := ih false (a :: read)
      simp only [if_true, bind_map_left, map_bind, ih]

/-- What every member makes of what has been gathered is made of the whole. -/
theorem members_map {τ : Type} (f : σ → τ) {step : String → σ → Reader σ}
    {step' : String → τ → Reader τ} (h : ∀ name s, step' name (f s) = f <$> step name s) (n : Nat)
    (first : Bool) (s : σ) : members step' n first (f s) = f <$> members step n first s := by
  induction n generalizing first s with
  | zero => rfl
  | succ n ih =>
    rw [members, members, map_bind]
    congr
    funext another
    cases another with
    | false => simp only [Bool.false_eq_true, if_false, map_pure]
    | true => simp only [if_true, map_bind, h, bind_map_left, ih]

end Container

namespace Document

open Container

/-- What reading a member of an object does. -/
def memberStep (levels : Nat) (name : String) (members : List (String × Value)) :
    Reader (List (String × Value)) := do
  colon
  return insert name (← value levels) members

/-- Reads a member of an object as it stands; the last one comes first. -/
def writtenStep (levels : Nat) (name : String) (members : List (String × Value)) :
    Reader (List (String × Value)) := do
  colon
  return (name, ← written levels) :: members

/-- The members that are sorted while they are read are those that are sorted afterwards. -/
theorem sorted_canonical_cons (name : String) (v : Value) (ms : List (String × Value)) :
    sorted (Value.canonicalMembers ((name, v) :: ms).reverse) =
      insert name v.canonical (sorted (Value.canonicalMembers ms.reverse)) := by
  rw [Value.canonicalMembers_eq_map, Value.canonicalMembers_eq_map, List.reverse_cons,
    List.map_append, sorted, List.foldl_append]
  rfl

theorem objectBody_eq_written {levels : Nat}
    (h : value levels = Value.canonical <$> written levels) :
    objectBody (memberStep levels) [] =
      (fun ms => sorted (Value.canonicalMembers ms.reverse)) <$>
        objectBody (writtenStep levels) [] := by
  have hstep (name : String) (ms : List (String × Value)) :
      memberStep levels name (sorted (Value.canonicalMembers ms.reverse)) =
        (fun ms => sorted (Value.canonicalMembers ms.reverse)) <$> writtenStep levels name ms := by
    rw [memberStep, writtenStep, h]
    simp only [map_bind, bind_map_left, map_pure, sorted_canonical_cons]
  rw [objectBody, objectBody, map_bind]
  congr
  funext c
  exact members_map _ hstep _ true []

theorem listBody_eq_written {levels : Nat}
    (h : value levels = Value.canonical <$> written levels) :
    listBody (value levels) = List.map Value.canonical <$> listBody (written levels) := by
  rw [h, listBody, listBody, map_bind]
  congr
  funext c
  exact items_map _ _ _ true []

/-- A value is read as it stands, and its members are sorted. -/
theorem value_eq_written : ∀ levels : Nat, value levels = Value.canonical <$> written levels
  | 0 => by
    funext c
    rw [value, written, map_bind]
    refine bind_congr_ok fun l d hl => ?_
    cases l with
    | value v =>
      show Except.ok (v, d) = .ok (v.canonical, d)
      rw [canonical_of_leaf hl]
    | list => rfl
    | object => rfl
  | levels + 1 => by
    have ih := value_eq_written levels
    have hlist := listBody_eq_written ih
    have hobject := objectBody_eq_written ih
    unfold memberStep writtenStep at hobject
    funext c
    rw [value, written, map_bind]
    refine bind_congr_ok fun l d hl => ?_
    cases l with
    | value v =>
      show Except.ok (v, d) = .ok (v.canonical, d)
      rw [canonical_of_leaf hl]
    | list =>
      simp only [hlist, map_bind, map_settled, bind_map_left, map_pure, Value.canonical,
        Value.canonicalItems_eq_map]
    | object =>
      simp only [hobject, map_bind, map_settled, bind_map_left, map_pure, Value.canonical]

theorem value_ok_iff {levels : Nat} {c c' : Cursor} {v : Value} :
    value levels c = .ok (v, c') ↔ ∃ w, written levels c = .ok (w, c') ∧ v = w.canonical := by
  rw [value_eq_written]
  constructor
  · intro h
    rw [← bind_pure_comp] at h
    exact of_map_ok h
  · rintro ⟨w, hw, rfl⟩
    rw [← bind_pure_comp, bind_of_ok hw]
    rfl

end Document

/-! ### From part to part -/

namespace Container

/-- A list is closed by its bracket. -/
theorem of_closeList_ok {c d : Cursor} (h : closeList c = .ok ((), d)) :
    (c.dropWhile isSpace).rest.head? = some ']' ∧ d = (c.dropWhile isSpace).tail := by
  rw [closeList, peekBehindSpace_bind] at h
  generalize c.dropWhile isSpace = e at h ⊢
  generalize ho : e.rest.head? = o at h ⊢
  split at h
  · obtain ⟨-, rfl⟩ := Prod.mk.inj (Except.ok.inj h)
    exact ⟨rfl, rfl⟩
  · rw [skip_bind, peekBehindSpace_bind] at h
    generalize (e.tail.dropWhile isSpace).rest.head? = o at h
    split at h <;> cases h
  · cases h
  · cases h

/-- An object is closed by its brace. -/
theorem of_closeObject_ok {c d : Cursor} (h : closeObject c = .ok ((), d)) :
    (c.dropWhile isSpace).rest.head? = some '\x7d' ∧ d = (c.dropWhile isSpace).tail := by
  rw [closeObject, peekBehindSpace_bind] at h
  generalize c.dropWhile isSpace = e at h ⊢
  generalize ho : e.rest.head? = o at h ⊢
  split at h
  · obtain ⟨-, rfl⟩ := Prod.mk.inj (Except.ok.inj h)
    exact ⟨rfl, rfl⟩
  all_goals cases h

/-- The parts of a container that are read one after the other from `c` on, up to `c'` in front of
what closes it. -/
inductive Run (more : Bool → Reader Bool) (part : Reader ι) :
    (first : Bool) → (c : Cursor) → List ι → (c' : Cursor) → Prop where
  | done {first : Bool} {c c' : Cursor} (h : more first c = .ok (false, c')) :
    Run more part first c [] c'
  | next {first : Bool} {c d e c' : Cursor} {x : ι} {xs : List ι}
    (h : more first c = .ok (true, d)) (hx : part d = .ok (x, e))
    (hxs : Run more part false e xs c') : Run more part first c (x :: xs) c'

section Run

variable {more : Bool → Reader Bool} {opens : Char → Prop} {close : Char} {part : Reader ι}
  {first : Bool} {c c' : Cursor} {xs : List ι}

/-- A loop that collects parts runs through them. -/
theorem run_of_loop {out : List ι → β} {loop : Nat → Bool → List ι → Reader β}
    (hloop : Loops more (nextItem part) out loop) {n : Nat} {read : List ι} {b : β}
    (h : loop n first read c = .ok (b, c')) :
    ∃ xs, Run more part first c xs c' ∧ xs.length < n ∧ b = out (xs.reverse ++ read) := by
  induction n generalizing first read c with
  | zero => exact absurd h (hloop.zero _ _ _ _)
  | succ n ih =>
    rw [hloop.succ] at h
    obtain ⟨another, d, hd, h⟩ := of_bind_ok h
    cases another with
    | false =>
      obtain ⟨rfl, rfl⟩ := of_pure_ok h
      exact ⟨[], .done hd, Nat.succ_pos n, rfl⟩
    | true =>
      simp only [if_true, bind_assoc, pure_bind] at h
      obtain ⟨x, e, hx, h⟩ := of_bind_ok h
      obtain ⟨xs, hrun, hn, rfl⟩ := ih h
      refine ⟨x :: xs, .next hd hx hrun, Nat.succ_lt_succ hn, ?_⟩
      rw [List.reverse_cons, List.append_assoc]
      rfl

/-- Behind its parts a container is closed. -/
theorem Run.end (hmore : Walks more opens close) (h : Run more part first c xs c') :
    c'.dropWhile isSpace = c' ∧ c'.rest.head? = some close := by
  induction h with
  | done h =>
    obtain ⟨rfl, hclose⟩ := hmore.of_end h
    exact ⟨Cursor.dropWhile_dropWhile _ _, hclose⟩
  | next _ _ _ ih => exact ih

end Run

end Container

namespace Document

open Container

/-- Reads a member of an object as it stands, from its opening quote on. -/
def writtenMember (levels : Nat) : Reader (String × Value) := do
  skip
  let name ← Quoted.body
  colon
  return (name, ← written levels)

theorem nextMember_written (levels : Nat) :
    nextMember (writtenStep levels) = nextItem (writtenMember levels) := by
  funext ms
  show (skip >>= fun _ => Quoted.body >>= fun name => writtenStep levels name ms) =
    writtenMember levels >>= fun m => pure (m :: ms)
  simp only [writtenStep, writtenMember, bind_assoc, pure_bind]

theorem loops_written (levels : Nat) :
    Loops hasMember (nextItem (writtenMember levels)) id (members (writtenStep levels)) := by
  rw [← nextMember_written]
  exact loops_members _

/-- A member consists of a name, a colon and a value. -/
theorem of_writtenMember_ok {levels : Nat} {c c' : Cursor} {m : String × Value}
    (h : writtenMember levels c = .ok (m, c')) : ∃ d e, Quoted.body c.tail = .ok (m.1, d) ∧
      colon d = .ok ((), e) ∧ written levels e = .ok (m.2, c') := by
  rw [writtenMember, skip_bind] at h
  obtain ⟨name, d, hname, h⟩ := of_bind_ok h
  obtain ⟨⟨⟩, e, hcolon, h⟩ := of_bind_ok h
  obtain ⟨v, hv, rfl⟩ := of_map_ok h
  exact ⟨d, e, hname, hcolon, hv⟩

/-! ### Values at their places -/

/-- A value at its place in a document, from the cursor in front of it to the one behind. -/
inductive Stands : (levels : Nat) → Cursor → Value → Cursor → Prop where
  | leaf {levels : Nat} {c c' : Cursor} {v : Value} (h : leaf c = .ok (.value v, c')) :
    Stands levels c v c'
  | list {levels : Nat} {c d e c' : Cursor} {vs : List Value} (hopen : leaf c = .ok (.list, d))
    (hrun : Run hasItem (written levels) true d.tail vs e) (hlength : vs.length ≤ d.tail.rest.length)
    (hclose : closeList e = .ok ((), c')) : Stands (levels + 1) c (.list vs) c'
  | object {levels : Nat} {c d e c' : Cursor} {ms : List (String × Value)}
    (hopen : leaf c = .ok (.object, d))
    (hrun : Run hasMember (writtenMember levels) true d.tail ms e)
    (hlength : ms.length ≤ d.tail.rest.length) (hclose : closeObject e = .ok ((), c')) :
    Stands (levels + 1) c (.object ms) c'

theorem stands_of_written {levels : Nat} {c c' : Cursor} {w : Value}
    (h : written levels c = .ok (w, c')) : Stands levels c w c' := by
  cases levels with
  | zero =>
    rw [written] at h
    obtain ⟨l, d, hleaf, h⟩ := of_bind_ok h
    cases l with
    | value v =>
      obtain ⟨rfl, rfl⟩ := of_pure_ok h
      exact .leaf hleaf
    | list => cases h
    | object => cases h
  | succ levels =>
    rw [written] at h
    obtain ⟨l, d, hleaf, h⟩ := of_bind_ok h
    cases l with
    | value v =>
      obtain ⟨rfl, rfl⟩ := of_pure_ok h
      exact .leaf hleaf
    | list =>
      obtain ⟨vs, e, hbody, h⟩ := of_bind_ok (of_settled_ok h)
      obtain ⟨⟨⟩, f, hclose, h⟩ := of_bind_ok h
      obtain ⟨rfl, rfl⟩ := of_pure_ok h
      obtain ⟨ws, hrun, hn, rfl⟩ := run_of_loop (loops_items _) hbody
      rw [List.append_nil, List.reverse_reverse]
      exact .list hleaf hrun (Nat.le_of_lt_succ hn) hclose
    | object =>
      obtain ⟨ms, e, hbody, h⟩ := of_bind_ok (of_settled_ok h)
      obtain ⟨⟨⟩, f, hclose, h⟩ := of_bind_ok h
      obtain ⟨rfl, rfl⟩ := of_pure_ok h
      obtain ⟨ws, hrun, hn, rfl⟩ := run_of_loop (loops_written levels) hbody
      rw [List.append_nil, id, List.reverse_reverse]
      exact .object hleaf hrun (Nat.le_of_lt_succ hn) hclose

/-- Blanks in front of a value do not matter. -/
theorem written_dropWhile (levels : Nat) (c : Cursor) :
    written levels (c.dropWhile isSpace) = written levels c := by
  have hleaf : leaf (c.dropWhile isSpace) = leaf c := by
    rw [leaf, peekBehindSpace_bind, peekBehindSpace_bind, Cursor.dropWhile_dropWhile]
  have hbind (f : Leaf → Reader Value) : (leaf >>= f) (c.dropWhile isSpace) = (leaf >>= f) c := by
    show (leaf _ >>= _) = (leaf _ >>= _)
    rw [hleaf]
  cases levels <;> rw [written] <;> exact hbind _

end Document

namespace Value

/-- No object in the value repeats a name. -/
inductive Distinct : Value → Prop where
  | null : Distinct .null
  | flag (b : Bool) : Distinct (.flag b)
  | number (n : Number) : Distinct (.number n)
  | text (s : String) : Distinct (.text s)
  | list {vs : List Value} (h : ∀ v ∈ vs, Distinct v) : Distinct (.list vs)
  | object {ms : List (String × Value)} (hnames : (ms.map (·.1)).Nodup)
    (h : ∀ m ∈ ms, Distinct m.2) : Distinct (.object ms)

/-- The value of a document as it is written there. -/
def written (document : String) : Except Failure Value :=
  Document.whole (Document.written maxLevels) document

/-- A document denotes the value that is written there, with its members sorted. -/
theorem read_ok_iff {document : String} {v : Value} :
    read document = .ok v ↔ ∃ w, written document = .ok w ∧ v = w.canonical := by
  constructor
  · intro h
    obtain ⟨c, d, hread, hfinish⟩ := Document.whole_eq_ok_iff.mp h
    obtain ⟨w, hw, rfl⟩ := Document.value_ok_iff.mp hread
    exact ⟨w, Document.whole_eq_ok_iff.mpr ⟨c, d, hw, hfinish⟩, rfl⟩
  · rintro ⟨w, h, rfl⟩
    obtain ⟨c, d, hw, hfinish⟩ := Document.whole_eq_ok_iff.mp h
    exact Document.whole_eq_ok_iff.mpr ⟨c, d, Document.value_ok_iff.mpr ⟨w, hw, rfl⟩, hfinish⟩

end Value

end Json
end CodeQuality
