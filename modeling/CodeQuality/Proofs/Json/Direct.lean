import CodeQuality.Proofs.Json.Accepts
import CodeQuality.Proofs.Json.Passing
import CodeQuality.Proofs.Json.Schemas

/-!
# Straight from the document

A schema reads straight from a document, or from the value that the document denotes. The two go
different ways: the first meets the members of an object in the order in which they are written and
only passes over those that no field covers, the second has them all, sorted. Where a document is
read as a value and no object in it repeats a name, both make the same of it, or both fail. They
may fail for different reasons, so only what is read is compared.

* `Reader.Follows` — a reader does at one place what a computation without a document says.
* `Container.Run.follows` — this is carried through the loops over items and members.
* `Schema.streams` — every schema, by recursion on it.
* `Schema.read_ok_iff` — whole documents.
-/

namespace CodeQuality
namespace Json

open Reader

variable {α β σ ι : Type}

/-! ### Following a computation -/

/-- At `c` the reader does what `x` says: it gives the same and goes on to `c'`, or it fails where
`x` fails. -/
def Reader.Follows (reader : Reader α) (x : Except Cause α) (c c' : Cursor) : Prop :=
  ∀ r, reader c = .ok r ↔ ∃ a, x = .ok a ∧ r = (a, c')

namespace Reader

variable {reader : Reader α} {f : α → Reader β} {x y : Except Cause α} {g : α → Except Cause β}
  {c d c' : Cursor} {a : α}

theorem Follows.of_ok (h : reader c = .ok (a, c')) : reader.Follows (.ok a) c c' := by
  intro r
  rw [h]
  constructor
  · rintro ⟨⟩
    exact ⟨a, rfl, rfl⟩
  · rintro ⟨_, ⟨⟩, rfl⟩
    rfl

theorem Follows.of_fails (h : ∀ r, reader c ≠ .ok r) (hx : ∀ a, x ≠ .ok a) :
    reader.Follows x c c' := by
  intro r
  refine ⟨fun hr => absurd hr (h r), ?_⟩
  rintro ⟨a, ha, -⟩
  exact absurd ha (hx a)

theorem Follows.ok_iff (h : reader.Follows x c c') : reader c = .ok (a, d) ↔ x = .ok a ∧ d = c' := by
  refine (h (a, d)).trans ⟨?_, fun ⟨hx, hd⟩ => ⟨a, hx, by rw [hd]⟩⟩
  rintro ⟨b, hx, heq⟩
  obtain ⟨rfl, rfl⟩ := Prod.mk.inj heq
  exact ⟨hx, rfl⟩

/-- Why `x` fails does not matter. -/
theorem Follows.congr (h : reader.Follows x c c') (hxy : ∀ a, x = .ok a ↔ y = .ok a) :
    reader.Follows y c c' := by
  intro r
  simp only [← hxy]
  exact h r

theorem Follows.bind (hr : reader.Follows x c d)
    (hf : ∀ a, x = .ok a → (f a).Follows (g a) d c') : (reader >>= f).Follows (x >>= g) c c' := by
  intro r
  constructor
  · intro h
    obtain ⟨b, e⟩ := r
    obtain ⟨a, d', ha, hb⟩ := of_bind_ok h
    obtain ⟨hx, rfl⟩ := hr.ok_iff.mp ha
    obtain ⟨hg, rfl⟩ := (hf a hx).ok_iff.mp hb
    exact ⟨b, ok_bind_iff.mpr ⟨a, hx, hg⟩, rfl⟩
  · rintro ⟨b, hb, rfl⟩
    obtain ⟨a, hx, hg⟩ := ok_bind_iff.mp hb
    rw [bind_of_ok (hr.ok_iff.mpr ⟨hx, rfl⟩)]
    exact (hf a hx).ok_iff.mpr ⟨hg, rfl⟩

/-- What comes first and gives something to go on with is no matter of `x`. -/
theorem Follows.behind {x : Except Cause β} (h : reader c = .ok (a, d))
    (hf : (f a).Follows x d c') : (reader >>= f).Follows x c c' := by
  intro r
  rw [bind_of_ok h]
  exact hf r

theorem Follows.map (h : reader.Follows x c c') (f : α → β) :
    (reader >>= fun a => pure (f a)).Follows (x.map f) c c' := by
  cases x with
  | ok a => exact .behind (h.ok_iff.mpr ⟨rfl, rfl⟩) (.of_ok rfl)
  | error e =>
    refine .of_fails (fun r hr => ?_) nofun
    obtain ⟨a, d, ha, -⟩ := of_bind_ok hr
    nomatch (h.ok_iff.mp ha).1

theorem Follows.settled (h : reader.Follows x c c') (finish : Cursor → Cursor) :
    (Reader.settled finish reader).Follows x c c' := by
  intro r
  refine Iff.trans ⟨of_settled_ok, fun hr => ?_⟩ (h r)
  rw [Reader.settled, hr]

theorem Follows.standing (x : Except Cause α) (c : Cursor) : (standing x).Follows x c c := by
  cases x with
  | ok a => exact .of_ok rfl
  | error cause => exact .of_fails (fail_ne_ok cause c) nofun

theorem Follows.ofExcept (x : Except Cause α) (c : Cursor) : (ofExcept x).Follows x c c := by
  cases x with
  | ok a => exact .of_ok rfl
  | error cause => exact .of_fails (failHere_ne_ok cause c) nofun

end Reader

/-! ### Loops -/

namespace Container

/-- A loop that does for each part what `effect` says does for all of them what they say together. -/
theorem Run.follows {more : Bool → Reader Bool} {elem : Reader ι} {part : σ → Reader σ}
    {out : σ → β} {loop : Nat → Bool → σ → Reader β} (hloop : Loops more part out loop)
    {effect : ι → σ → Except Cause σ} {P : ι → Prop}
    (hpart : ∀ {d x e}, elem d = .ok (x, e) → P x → ∀ s, (part s).Follows (effect x s) d e)
    {first : Bool} {c c' : Cursor} {xs : List ι} (h : Run more elem first c xs c')
    (hxs : ∀ x ∈ xs, P x) {n : Nat} (hn : xs.length < n) (s : σ) :
    (loop n first s).Follows ((xs.foldlM (fun s x => effect x s) s).map out) c c' := by
  induction h generalizing n s with
  | done h =>
    obtain ⟨n, rfl⟩ : ∃ m, n = m + 1 := ⟨n - 1, by simp at hn; omega⟩
    rw [hloop.succ]
    exact .behind h (.of_ok rfl)
  | @next _ _ _ _ _ x xs h hx _ ih =>
    obtain ⟨n, rfl⟩ : ∃ m, n = m + 1 := ⟨n - 1, by simp at hn; omega⟩
    obtain ⟨hx', hxs⟩ := List.forall_mem_cons.mp hxs
    have ih := ih hxs (Nat.lt_of_succ_lt_succ hn)
    have hassoc : ((x :: xs).foldlM (fun s x => effect x s) s).map out =
        effect x s >>= fun s => (xs.foldlM (fun s x => effect x s) s).map out := by
      rw [List.foldlM_cons]
      cases effect x s <;> rfl
    rw [hloop.succ, hassoc]
    exact .behind h ((hpart hx hx' s).bind fun s' _ => ih s')

/-- The items of a list that collects what `read` makes of each. -/
theorem foldlM_eq_mapM {ε : Type} (read : ι → Except ε α) (xs : List ι) (as : List α) :
    (xs.foldlM (fun as x => (read x).map (· :: as)) as).map List.reverse =
      (xs.mapM read).map (as.reverse ++ ·) := by
  induction xs generalizing as with
  | nil =>
    show Except.ok as.reverse = .ok (as.reverse ++ [])
    rw [List.append_nil]
  | cons x xs ih =>
    rw [List.foldlM_cons, List.mapM_cons]
    cases read x with
    | error e => rfl
    | ok a =>
      refine (ih (a :: as)).trans ?_
      show (xs.mapM read).map ((a :: as).reverse ++ ·) =
        (xs.mapM read >>= fun bs => pure (a :: bs)).map (as.reverse ++ ·)
      cases xs.mapM read with
      | error e => rfl
      | ok bs =>
        show Except.ok ((a :: as).reverse ++ bs) = .ok (as.reverse ++ a :: bs)
        rw [List.reverse_cons, List.append_assoc]
        rfl

end Container

open Container Document

/-! ### Single values -/

/-- Wherever a value stands whose objects repeat no name, the schema makes of the document what it
makes of the value. -/
def Schema.Streams (s : Schema) : Prop :=
  ∀ {levels : Nat} {c c' : Cursor} {w : Value}, written levels c = .ok (w, c') → w.Distinct →
    (s.reader levels).Follows (s.ofValue w.canonical) c c'

namespace Document

section Kinds

variable {levels : Nat} {c c' : Cursor}

theorem written_null (h : written levels c = .ok (.null, c')) :
    (c.dropWhile isSpace).rest.head? = some 'n' ∧
      letters ['u', 'l', 'l'] (c.dropWhile isSpace).tail = .ok ((), c') := by
  cases stands_of_written h with
  | leaf h =>
    obtain ⟨x, hx, hmeets⟩ := meets_of_leaf h
    cases hmeets with
    | null h => exact ⟨hx, h⟩

theorem written_text {s : String} (h : written levels c = .ok (.text s, c')) :
    (c.dropWhile isSpace).rest.head? = some '"' ∧
      Quoted.body (c.dropWhile isSpace).tail = .ok (s, c') := by
  cases stands_of_written h with
  | leaf h =>
    obtain ⟨x, hx, hmeets⟩ := meets_of_leaf h
    cases hmeets with
    | text h => exact ⟨hx, h⟩

theorem written_list {vs : List Value} (h : written levels c = .ok (.list vs, c')) :
    (c.dropWhile isSpace).rest.head? = some '[' ∧ ∃ l e, levels = l + 1 ∧
      Run hasItem (written l) true (c.dropWhile isSpace).tail vs e ∧
      vs.length ≤ (c.dropWhile isSpace).tail.rest.length ∧ closeList e = .ok ((), c') := by
  cases stands_of_written h with
  | leaf h =>
    obtain ⟨x, hx, hmeets⟩ := meets_of_leaf h
    nomatch hmeets
  | list hopen hrun hlength hclose =>
    obtain ⟨x, hx, hmeets⟩ := meets_of_leaf hopen
    cases hmeets
    exact ⟨hx, _, _, rfl, hrun, hlength, hclose⟩

theorem written_object {ms : List (String × Value)} (h : written levels c = .ok (.object ms, c')) :
    (c.dropWhile isSpace).rest.head? = some '\x7b' ∧ ∃ l e, levels = l + 1 ∧
      Run hasMember (writtenMember l) true (c.dropWhile isSpace).tail ms e ∧
      ms.length ≤ (c.dropWhile isSpace).tail.rest.length ∧ closeObject e = .ok ((), c') := by
  cases stands_of_written h with
  | leaf h =>
    obtain ⟨x, hx, hmeets⟩ := meets_of_leaf h
    nomatch hmeets
  | object hopen hrun hlength hclose =>
    obtain ⟨x, hx, hmeets⟩ := meets_of_leaf hopen
    cases hmeets
    exact ⟨hx, _, _, rfl, hrun, hlength, hclose⟩

/-- The characters that tell nulls, texts, lists and objects begin no other values. -/
theorem head_of_written {w : Value} (h : written levels c = .ok (w, c')) :
    ∃ x, (c.dropWhile isSpace).rest.head? = some x ∧ (x = 'n' → w = .null) ∧
      (x = '"' → ∃ s, w = .text s) ∧ (x = '[' → ∃ vs, w = .list vs) ∧
      (x = '\x7b' → ∃ ms, w = .object ms) := by
  cases w with
  | null => exact ⟨_, (written_null h).1, fun _ => rfl, nofun, nofun, nofun⟩
  | text s => exact ⟨_, (written_text h).1, nofun, fun _ => ⟨s, rfl⟩, nofun, nofun⟩
  | list vs => exact ⟨_, (written_list h).1, nofun, nofun, fun _ => ⟨vs, rfl⟩, nofun⟩
  | object ms => exact ⟨_, (written_object h).1, nofun, nofun, nofun, fun _ => ⟨ms, rfl⟩⟩
  | flag b =>
    cases stands_of_written h with
    | leaf h =>
      obtain ⟨x, hx, hmeets⟩ := meets_of_leaf h
      cases hmeets <;> exact ⟨_, hx, nofun, nofun, nofun, nofun⟩
  | number n =>
    cases stands_of_written h with
    | leaf h =>
      obtain ⟨x, hx, hmeets⟩ := meets_of_leaf h
      cases hmeets with
      | number hnumber =>
        obtain ⟨-, -, hn, -, -, hq, hl, ho⟩ := number_head hnumber
        exact ⟨x, hx, fun h => absurd h hn, fun h => absurd h hq, fun h => absurd h hl,
          fun h => absurd h ho⟩

end Kinds

end Document

namespace Schema

section Leaves

variable {levels : Nat} {c c' : Cursor} {w : Value}

theorem text_of_ne {expected : Expected} (h : (c.dropWhile isSpace).rest.head? ≠ some '"') :
    Reader.text expected c = unexpected expected (c.dropWhile isSpace) := by
  rw [Reader.text, peekBehindSpace_bind]
  generalize (c.dropWhile isSpace).rest.head? = o at h ⊢
  split
  · exact absurd rfl h
  · rfl

theorem follows_text (expected : Expected) (h : written levels c = .ok (w, c')) :
    (Reader.text expected).Follows (Schema.text.ofValue w.canonical) c c' := by
  obtain ⟨x, hx, -, htext, -⟩ := head_of_written h
  by_cases hq : x = '"'
  · obtain ⟨s, rfl⟩ := htext hq
    obtain ⟨hquote, hbody⟩ := written_text h
    refine .of_ok ?_
    rw [Reader.text, peekBehindSpace_bind, hquote]
    exact hbody
  · refine .of_fails (fun r hr => ?_) fun s hs => ?_
    · rw [text_of_ne (hx ▸ fun heq => hq (Option.some.inj heq))] at hr
      exact unexpected_ne_ok _ _ _ hr
    · cases w with
      | text s => exact hq (Option.some.inj (hx.symm.trans (written_text h).1))
      | _ => cases hs

theorem streams_text : Schema.text.Streams := fun h _ => follows_text .text h

theorem streams_any : Schema.any.Streams :=
  fun h _ => .of_ok (value_ok_iff.mpr ⟨_, h, rfl⟩)

theorem streams_flag : Schema.flag.Streams := by
  intro levels c c' w h _
  have hfails {d : Cursor} {cause : Cause} {v : Value} (hv : ∀ b, v ≠ .flag b) :
      (failHere cause : Reader Bool).Follows (Schema.flag.ofValue v) d c' := by
    refine .of_fails (failHere_ne_ok cause d) fun b hb => ?_
    cases v with
    | flag b => exact hv b rfl
    | _ => nomatch hb
  cases stands_of_written h with
  | leaf hleaf =>
    rw [canonical_of_leaf hleaf]
    refine .behind hleaf ?_
    cases w with
    | flag b => exact .of_ok rfl
    | _ => exact hfails nofun
  | list hopen => exact .behind hopen (hfails nofun)
  | object hopen => exact .behind hopen (hfails nofun)

theorem follows_number (expected : Expected) (convert : Number → Except Cause α)
    (h : written levels c = .ok (w, c')) {x : Except Cause α}
    (hx : ∀ a, x = .ok a ↔ ∃ n, w = .number n ∧ convert n = .ok a) :
    (Reader.number expected convert).Follows x c c' := by
  have hfails {d : Cursor} {cause : Cause} (hw : ∀ n, w ≠ .number n) :
      (failHere cause : Reader α).Follows x d c' := by
    refine .of_fails (failHere_ne_ok cause d) fun a ha => ?_
    obtain ⟨n, hn, -⟩ := (hx a).mp ha
    exact hw n hn
  cases stands_of_written h with
  | leaf hleaf =>
    refine .behind hleaf ?_
    cases w with
    | number n =>
      refine (Follows.ofExcept (convert n) c').congr fun a => ?_
      rw [hx]
      constructor
      · exact fun ha => ⟨n, rfl, ha⟩
      · rintro ⟨_, ⟨⟩, ha⟩
        exact ha
    | _ => exact hfails nofun
  | list hopen => exact .behind hopen (hfails nofun)
  | object hopen => exact .behind hopen (hfails nofun)

theorem streams_count : Schema.count.Streams := by
  intro levels c c' w h _
  refine follows_number .count countOf h fun a => ?_
  cases w with
  | number n => exact ⟨fun ha => ⟨n, rfl, ha⟩, fun ⟨_, heq, ha⟩ => Value.number.inj heq ▸ ha⟩
  | _ => exact ⟨nofun, fun ⟨_, heq, _⟩ => nomatch heq⟩

theorem streams_signed : Schema.signed.Streams := by
  intro levels c c' w h _
  refine follows_number .signed signedOf h fun a => ?_
  cases w with
  | number n => exact ⟨fun ha => ⟨n, rfl, ha⟩, fun ⟨_, heq, ha⟩ => Value.number.inj heq ▸ ha⟩
  | _ => exact ⟨nofun, fun ⟨_, heq, _⟩ => nomatch heq⟩

end Leaves

/-! ### Nothing, or a value -/

theorem optional_of_ne {inner : Reader α} {c : Cursor}
    (h : (c.dropWhile isSpace).rest.head? ≠ some 'n') :
    Reader.optional inner c = (inner >>= fun a => pure (some a)) (c.dropWhile isSpace) := by
  rw [Reader.optional, peekBehindSpace_bind]
  generalize (c.dropWhile isSpace).rest.head? = o at h ⊢
  split
  · exact absurd rfl h
  · rfl

/-- What may be nothing follows if what it may be otherwise does, from behind the blanks. -/
theorem follows_optional {inner : Schema} {reader : Reader inner.Val} {levels : Nat}
    {c c' : Cursor} {w : Value} (h : written levels c = .ok (w, c'))
    (hinner : reader.Follows (inner.ofValue w.canonical) (c.dropWhile isSpace) c') :
    (Reader.optional reader).Follows ((Schema.optional inner).ofValue w.canonical) c c' := by
  obtain ⟨x, hx, hnull, -⟩ := head_of_written h
  by_cases hn : x = 'n'
  · obtain rfl := hnull hn
    obtain ⟨hhead, hletters⟩ := written_null h
    refine .of_ok ?_
    rw [Reader.optional, peekBehindSpace_bind, hhead]
    show (skip >>= fun _ => letters ['u', 'l', 'l'] >>= fun _ => pure none) _ = _
    rw [skip_bind, bind_of_ok hletters]
    rfl
  · have hw : w ≠ .null := by
      rintro rfl
      exact hn (Option.some.inj (hx.symm.trans (written_null h).1))
    intro r
    rw [optional_of_ne (hx ▸ fun heq => hn (Option.some.inj heq)),
      ofValue_optional (Value.canonical_ne_null hw)]
    exact hinner.map some r

theorem streams_optional {inner : Schema} (hinner : inner.Streams) :
    (Schema.optional inner).Streams := by
  intro levels c c' w h hw
  exact follows_optional h (hinner ((written_dropWhile levels c).trans h) hw)

theorem streams_date : Schema.date.Streams := by
  intro levels c c' w h _
  have htext : (Reader.optional (Reader.text .text)).Follows
      ((Schema.optional .text).ofValue w.canonical) c c' :=
    @follows_optional .text _ levels c c' w h
      (follows_text .text ((written_dropWhile levels c).trans h))
  refine (Follows.bind (g := fun o => o.elim (.ok none) dateOf) htext fun o _ => ?_).congr
    fun a => ?_
  · cases o with
    | none => exact .of_ok rfl
    | some s => exact .standing _ _
  · cases w <;> exact Iff.rfl

/-! ### Lists -/

theorem list_fails {item : Schema} {levels : Nat} {c : Cursor}
    (h : (c.dropWhile isSpace).rest.head? ≠ some '[') (r : List item.Val × Cursor) :
    (Schema.list item).reader levels c ≠ .ok r := by
  rw [reader_list_eq, peekBehindSpace_bind]
  generalize (c.dropWhile isSpace).rest.head? = o at h ⊢
  split
  · exact failHere_ne_ok _ _ _
  · exact absurd rfl h
  · exact unexpected_ne_ok _ _ _

/-- The items between the brackets of a list. -/
theorem follows_items {item : Schema} (hitem : item.Streams) {levels : Nat} {c e c' : Cursor}
    {vs : List Value} (hrun : Run hasItem (written levels) true c vs e)
    (hlength : vs.length ≤ c.rest.length) (hclose : closeList e = .ok ((), c'))
    (hvs : ∀ v ∈ vs, v.Distinct) :
    (settled listEnd (listBody (item.reader levels) >>= fun as => closeList >>= fun _ =>
      pure as)).Follows ((Schema.list item).ofValue (Value.list vs).canonical) c c' := by
  have hpart {d e : Cursor} {v : Value} (hv : written levels d = .ok (v, e)) (hd : v.Distinct)
      (as : List item.Val) : (nextItem (item.reader levels) as).Follows
        ((item.ofValue v.canonical).map (· :: as)) d e := (hitem hv hd).map (· :: as)
  have hitems := hrun.follows (loops_items (item.reader levels)) hpart hvs
    (Nat.lt_succ_of_le hlength) []
  have hvalue : (Schema.list item).ofValue (Value.list vs).canonical =
      (vs.foldlM (fun as v => (item.ofValue v.canonical).map (· :: as)) []).map List.reverse >>=
        fun as => .ok as := by
    rw [foldlM_eq_mapM]
    show (Value.canonicalItems vs).mapM item.ofValue = _
    rw [Value.canonicalItems_eq_map, List.mapM_map]
    show vs.mapM (fun v => item.ofValue v.canonical) = _
    cases vs.mapM (fun v => item.ofValue v.canonical) <;> rfl
  rw [hvalue]
  refine .settled (Follows.bind ?_ fun as _ => .behind hclose (.of_ok rfl)) _
  exact hitems

theorem streams_list {item : Schema} (hitem : item.Streams) : (Schema.list item).Streams := by
  intro levels c c' w h hw
  obtain ⟨x, hx, -, -, hlist, -⟩ := head_of_written h
  by_cases hl : x = '['
  · obtain ⟨vs, rfl⟩ := hlist hl
    obtain ⟨hhead, l, e, rfl, hrun, hlength, hclose⟩ := written_list h
    cases hw with
    | list hvs =>
      intro r
      rw [reader_list_eq, peekBehindSpace_bind, hhead]
      exact follows_items hitem hrun hlength hclose hvs r
  · refine .of_fails (list_fails (hx ▸ fun heq => hl (Option.some.inj heq))) fun as has => ?_
    cases w with
    | list vs => exact hl (Option.some.inj (hx.symm.trans (written_list h).1))
    | _ => nomatch has

/-! ### Tags -/

/-- Members whose names differ and of which one is left behind sorting are one member. -/
theorem eq_singleton_of_sorted {ms : List (String × Value)} {m : String × Value}
    (hnames : (ms.map (·.1)).Nodup) (h : sorted (Value.canonicalMembers ms) = [m]) :
    ∃ v, ms = [(m.1, v)] ∧ v.canonical = m.2 := by
  have hnames' : (Value.canonicalMembers ms).map (·.1) = ms.map (·.1) := by
    rw [Value.canonicalMembers_eq_map, List.map_map]
    rfl
  have hperm := sorted_perm (hnames' ▸ hnames)
  rw [h, Value.canonicalMembers_eq_map] at hperm
  have hms := List.singleton_perm.mp hperm
  match ms, hms with
  | [(name, v)], hms =>
    obtain rfl := List.cons.inj hms |>.1
    exact ⟨v, rfl, rfl⟩

/-- An object names a tag if its only member is null. -/
theorem ofValue_tag_object_iff {known : List String} {other : String} {ms : List (String × Value)}
    (hnames : (ms.map (·.1)).Nodup) {tag : Option (Fin known.length)} :
    (Schema.tag known other).ofValue (Value.object ms).canonical = .ok tag ↔
      ∃ name, ms = [(name, .null)] ∧ tag = tagOf known name := by
  refine ofValue_tag_iff.trans (exists_congr fun name => and_congr_left fun _ => ?_)
  constructor
  · rintro (h | h)
    · nomatch h
    · obtain ⟨v, rfl, hv⟩ := eq_singleton_of_sorted hnames (Value.object.inj h)
      cases v with
      | null => rfl
      | _ => nomatch hv
  · rintro rfl
    exact .inr rfl

/-- What is read between the braces of a tag. -/
def tagInside (known : List String) : Reader (Option (Fin known.length)) := do
  let name ← Reader.text .tagName
  colon
  nothing
  match ← peekBehindSpace with
  | some '}' => do
    skip
    return tagOf known name
  | some _ => failHere .valueExpected
  | none => failHere .endInObject

theorem tag_of_ne {known : List String} {levels : Nat} {c : Cursor}
    (hq : (c.dropWhile isSpace).rest.head? ≠ some '"')
    (ho : (c.dropWhile isSpace).rest.head? ≠ some '\x7b') (r) :
    Reader.tag known levels c ≠ .ok r := by
  rw [Reader.tag, peekBehindSpace_bind]
  generalize (c.dropWhile isSpace).rest.head? = o at hq ho ⊢
  split
  · exact failHere_ne_ok _ _ _
  · exact absurd rfl hq
  · exact absurd rfl ho
  · exact failAhead_ne_ok _ _ _

theorem nothing_of_written {levels : Nat} {c c' : Cursor}
    (h : written levels c = .ok (.null, c')) : nothing c = .ok ((), c') := by
  obtain ⟨hhead, hletters⟩ := written_null h
  rw [nothing, peekBehindSpace_bind, hhead]
  exact hletters

theorem nothing_fails {c : Cursor} (h : (c.dropWhile isSpace).rest.head? ≠ some 'n')
    (r : Unit × Cursor) : nothing c ≠ .ok r := by
  rw [nothing, peekBehindSpace_bind]
  generalize (c.dropWhile isSpace).rest.head? = o at h ⊢
  split
  · exact failHere_ne_ok _ _ _
  · exact absurd rfl h
  · exact unexpected_ne_ok _ _ _

/-- Behind the null of a tag its object must be closed. -/
theorem tagEnd_fails {known : List String} {name : String} {c : Cursor}
    (h : (c.dropWhile isSpace).rest.head? = some ',') (r : Option (Fin known.length) × Cursor) :
    (peekBehindSpace >>= fun
      | some '}' => skip >>= fun _ => pure (tagOf known name)
      | some _ => failHere .valueExpected
      | none => failHere .endInObject) c ≠ .ok r := by
  rw [peekBehindSpace_bind, h]
  exact failHere_ne_ok _ _ _

theorem follows_tagInside {known : List String} {other : String} {l : Nat} {c e c' : Cursor}
    {ms : List (String × Value)} (hrun : Run hasMember (writtenMember l) true c ms e)
    (hclose : closeObject e = .ok ((), c')) (hnames : (ms.map (·.1)).Nodup) :
    (tagInside known).Follows ((Schema.tag known other).ofValue (Value.object ms).canonical)
      c c' := by
  have hvalue {tag} : (Schema.tag known other).ofValue (Value.object ms).canonical = .ok tag ↔
      ∃ name, ms = [(name, .null)] ∧ tag = tagOf known name := ofValue_tag_object_iff hnames
  obtain ⟨-, hend⟩ := hrun.end walks_hasMember
  obtain ⟨-, rfl⟩ := of_closeObject_ok hclose
  cases hrun with
  | done h =>
    -- An empty object names nothing.
    obtain ⟨rfl, hhead⟩ := walks_hasMember.of_end h
    refine .of_fails (fun r hr => ?_) fun tag htag => ?_
    · obtain ⟨_, _, htext, -⟩ := of_bind_ok hr
      rw [text_of_ne (by rw [hhead]; decide)] at htext
      exact unexpected_ne_ok _ _ _ htext
    · obtain ⟨_, hms, -⟩ := hvalue.mp htag
      cases hms
  | @next _ _ _ f _ m ms h hm hms =>
    obtain ⟨rfl, x, hx, hopen⟩ := walks_hasMember.of_begin h
    obtain ⟨d, d', hname, hcolon, hv⟩ := of_writtenMember_ok hm
    have htext : Reader.text .tagName c = .ok (m.1, d) := by
      rw [Reader.text, peekBehindSpace_bind, hx, hopen]
      exact hname
    obtain ⟨name, v⟩ := m
    refine .behind htext (.behind hcolon ?_)
    by_cases hnull : v = .null
    · subst hnull
      refine .behind (nothing_of_written hv) ?_
      cases hms with
      | done h =>
        obtain ⟨rfl, hhead⟩ := walks_hasMember.of_end h
        rw [hvalue.mpr ⟨name, rfl, rfl⟩]
        refine .of_ok ?_
        rw [peekBehindSpace_bind, hhead, Cursor.dropWhile_dropWhile]
        rfl
      | next h =>
        obtain ⟨hcomma, -⟩ := walks_hasMember.of_goesOn h
        refine .of_fails (tagEnd_fails hcomma) fun tag htag => ?_
        obtain ⟨_, hms, -⟩ := hvalue.mp htag
        cases hms
    · refine .of_fails (fun r hr => ?_) fun tag htag => ?_
      · obtain ⟨y, hy, hnull', -⟩ := head_of_written hv
        obtain ⟨⟨⟩, _, hnothing, -⟩ := of_bind_ok hr
        exact nothing_fails (hy ▸ fun heq => hnull (hnull' (Option.some.inj heq))) _ hnothing
      · obtain ⟨_, hms, -⟩ := hvalue.mp htag
        exact hnull (Prod.mk.inj (List.cons.inj hms).1).2

theorem streams_tag (known : List String) (other : String) : (Schema.tag known other).Streams := by
  intro levels c c' w h hw
  obtain ⟨x, hx, -, htext, -, hobject⟩ := head_of_written h
  by_cases hq : x = '"'
  · obtain ⟨s, rfl⟩ := htext hq
    obtain ⟨hhead, hbody⟩ := written_text h
    refine .of_ok ?_
    show Reader.tag known levels c = _
    rw [Reader.tag, peekBehindSpace_bind, hhead]
    show (skip >>= fun _ => Quoted.body >>= fun name => pure (tagOf known name)) _ = _
    rw [skip_bind, bind_of_ok hbody]
    rfl
  by_cases ho : x = '\x7b'
  · obtain ⟨ms, rfl⟩ := hobject ho
    obtain ⟨hhead, l, e, rfl, hrun, -, hclose⟩ := written_object h
    cases hw with
    | object hnames =>
      intro r
      show Reader.tag known (l + 1) c = _ ↔ _
      rw [Reader.tag, peekBehindSpace_bind, hhead]
      exact follows_tagInside hrun hclose hnames r
  · have hfails : ∀ r, (Schema.tag known other).reader levels c ≠ .ok r :=
      tag_of_ne (hx ▸ fun heq => hq (Option.some.inj heq))
        (hx ▸ fun heq => ho (Option.some.inj heq))
    refine .of_fails hfails fun tag htag => ?_
    cases w with
    | text s => exact hq (Option.some.inj (hx.symm.trans (written_text h).1))
    | object ms => exact ho (Option.some.inj (hx.symm.trans (written_object h).1))
    | _ => cases htag

end Schema

/-! ### Records -/

namespace Fields

/-- The fields make of a member what they make of its value. -/
def StreamsMembers (fs : Fields) : Prop :=
  ∀ {levels : Nat} {c d c' : Cursor} {v : Value}, colon c = .ok ((), d) →
    written levels d = .ok (v, c') → v.Distinct → ∀ (name : String) (slots : fs.Slots),
      (fs.memberReader levels name slots).Follows (fs.memberOfValue name v.canonical slots) c c'

/-- The fields make of the items that are left up to the bracket what they make of their values. -/
def StreamsRow (fs : Fields) : Prop :=
  ∀ {levels : Nat} {first : Bool} {c e c' : Cursor} {vs : List Value},
    Run hasItem (written levels) first c vs e → closeList e = .ok ((), c') →
      (∀ v ∈ vs, v.Distinct) → ∀ (name : String) (total index : Nat) (cause : Cause) {β : Type}
        (f : fs.Row → β),
        (fs.rowReader levels name total index first >>= fun row => closeList >>= fun _ =>
          pure (f row)).Follows
          (fs.rowOfValues name total index (vs.map Value.canonical) >>= fun r =>
            if r.2.isEmpty then .ok (f r.1) else .error cause) c c'

variable {label : Label} {schema : Schema} {rest : Fields}

theorem streamsMembers_nil : Fields.nil.StreamsMembers := by
  intro levels c d c' v hcolon hv _ name slots
  have hpast := Skipped.passes_value levels _ _ _ (value_ok_iff.mpr ⟨v, hv, rfl⟩)
  exact .behind hcolon (.behind hpast (.of_ok rfl))

/-- A member is read by the field that covers it, or goes to the fields behind. -/
theorem streamsMembers_cons (hschema : schema.Streams) (hrest : rest.StreamsMembers) :
    (Fields.cons label schema rest).StreamsMembers := by
  intro levels c d c' v hcolon hv hdistinct name slots
  obtain ⟨slot, slots⟩ := slots
  show ((Fields.cons label schema rest).memberReader levels name
    (slotsCons label slot slots)).Follows ((Fields.cons label schema rest).memberOfValue name
      v.canonical (slotsCons label slot slots)) c c'
  rw [memberReader_cons, memberOfValue_cons]
  split
  · cases slot with
    | some _ => exact .of_fails (fail_ne_ok _ _) nofun
    | none => exact .behind hcolon ((hschema hv hdistinct).bind fun a _ => .of_ok rfl)
  · exact (hrest hcolon hv hdistinct name slots).bind fun slots' _ => .of_ok rfl

theorem closeList_dropWhile (c : Cursor) : closeList (c.dropWhile isSpace) = closeList c := by
  rw [closeList, peekBehindSpace_bind, peekBehindSpace_bind, Cursor.dropWhile_dropWhile]

/-- A list is not closed in front of another item. -/
theorem closeList_fails {first : Bool} {c d : Cursor} (h : hasItem first c = .ok (true, d))
    (r : Unit × Cursor) : closeList c ≠ .ok r := by
  intro hclose
  obtain ⟨hhead, -⟩ := of_closeList_ok hclose
  cases first with
  | true =>
    obtain ⟨rfl, x, hx, hopen⟩ := walks_hasItem.of_begin h
    exact hopen.2 (Option.some.inj (hx.symm.trans hhead))
  | false =>
    obtain ⟨hcomma, -⟩ := walks_hasItem.of_goesOn h
    nomatch hcomma.symm.trans hhead

/-- Where a list is over, it is over when one looks again. -/
theorem hasItem_again {first : Bool} {c d : Cursor} (h : hasItem first c = .ok (false, d)) :
    hasItem first d = .ok (false, d) := by
  obtain ⟨rfl, -⟩ := walks_hasItem.of_end h
  rw [hasItem, peekBehindSpace_bind] at h ⊢
  rw [Cursor.dropWhile_dropWhile]
  exact h

/-- Where no field is left, the list must be over. -/
theorem streamsRow_nil : Fields.nil.StreamsRow := by
  intro levels first c e c' vs hrun hclose _ name total index cause β f
  show (closeList >>= fun _ => pure (f ())).Follows
    (if (vs.map Value.canonical).isEmpty then .ok (f ()) else .error cause) c c'
  cases hrun with
  | done h =>
    obtain ⟨rfl, -⟩ := walks_hasItem.of_end h
    rw [closeList_dropWhile] at hclose
    exact .behind hclose (.of_ok rfl)
  | next h =>
    refine .of_fails (fun r hr => ?_) nofun
    obtain ⟨_, _, hclosed, -⟩ := of_bind_ok hr
    exact closeList_fails h _ hclosed

/-- What the first field holds is put in front of what the fields behind it hold. -/
theorem rowCons_bind {a : schema.Val} (x : Except Cause (rest.Row × List Value))
    (g : (Fields.cons label schema rest).Row × List Value → Except Cause β) :
    ((x >>= fun r => .ok (rowCons label a r.1, r.2)) >>= g) =
      x >>= fun r => g (rowCons label a r.1, r.2) := by
  cases x <;> rfl

/-- Each field takes the next item, or is absent if none is left. -/
theorem streamsRow_cons (hschema : schema.Streams) (hrest : rest.StreamsRow) :
    (Fields.cons label schema rest).StreamsRow := by
  intro levels first c e c' vs hrun hclose hvs name total index cause β f
  -- The fields behind the first make of what is left what they make of its values.
  have hrow {first : Bool} {d : Cursor} {vs : List Value} (a : schema.Val)
      (hrun : Run hasItem (written levels) first d vs e) (hvs : ∀ v ∈ vs, v.Distinct) :
      ((rest.rowReader levels name total (index + 1) first >>= fun row =>
        pure (rowCons label a row)) >>= fun row => closeList >>= fun _ => pure (f row)).Follows
        ((rest.rowOfValues name total (index + 1) (vs.map Value.canonical) >>= fun r =>
          .ok (rowCons label a r.1, r.2)) >>= fun r =>
            if r.2.isEmpty then .ok (f r.1) else .error cause) d c' := by
    rw [bind_assoc, rowCons_bind]
    simp only [pure_bind]
    exact hrest hrun hclose hvs name total (index + 1) cause fun row => f (rowCons label a row)
  rw [rowReader_cons, bind_assoc]
  cases hrun with
  | done h =>
    refine .behind h ?_
    rw [List.map_nil, rowOfValues_nil]
    cases label.required with
    | true =>
      refine .of_fails (fun r hr => ?_) nofun
      obtain ⟨_, _, hfail, -⟩ := of_bind_ok hr
      exact fail_ne_ok _ _ _ hfail
    | false => exact hrow schema.zero (.done (hasItem_again h)) (List.forall_mem_nil _)
  | next h hv hrun =>
    obtain ⟨hv', hvs⟩ := List.forall_mem_cons.mp hvs
    refine .behind h ?_
    rw [List.map_cons, rowOfValues_cons]
    rw [if_pos rfl, bind_assoc, bind_assoc]
    exact (hschema hv hv').bind fun a _ => hrow a hrun hvs

end Fields

namespace Schema

variable {fs : Fields} {levels : Nat} {c e c' : Cursor}

/-- The members between the braces of a record. -/
theorem follows_members (hfs : fs.StreamsMembers) (name : String) {ms : List (String × Value)}
    (hrun : Run hasMember (writtenMember levels) true c ms e)
    (hlength : ms.length ≤ c.rest.length) (hclose : closeObject e = .ok ((), c'))
    (hnames : (ms.map (·.1)).Nodup) (hms : ∀ m ∈ ms, m.2.Distinct) :
    (settled objectEnd (objectBody (fs.memberStep levels) fs.emptySlots >>= fun slots =>
      standing ((fs.row slots).mapError missing) >>= fun row => closeObject >>= fun _ =>
        pure row)).Follows ((Schema.record name fs).ofValue (Value.object ms).canonical) c c' := by
  have hpart {d e : Cursor} {m : String × Value} (hm : writtenMember levels d = .ok (m, e))
      (hd : m.2.Distinct) (slots : fs.Slots) : (nextMember (fs.memberStep levels) slots).Follows
        (fs.memberOfValue m.1 m.2.canonical slots) d e := by
    obtain ⟨f, f', hname, hcolon, hv⟩ := of_writtenMember_ok hm
    refine .behind (rfl : skip d = .ok ((), d.tail)) (.behind hname ?_)
    exact hfs hcolon hv hd m.1 slots
  have hmembers := hrun.follows (loops_members (fs.memberStep levels)) hpart hms
    (Nat.lt_succ_of_le hlength) fs.emptySlots
  -- The members are met as they are written, and the value has them sorted.
  have hvalue (row : fs.Row) :
      (((ms.foldlM (fun slots m => fs.memberOfValue m.1 m.2.canonical slots) fs.emptySlots).map id
        >>= fun slots => (fs.row slots).mapError missing >>= fun row => .ok row) = .ok row) ↔
        (Schema.record name fs).ofValue (Value.object ms).canonical = .ok row := by
    have hgather : ms.foldlM (fun slots m => fs.memberOfValue m.1 m.2.canonical slots)
        fs.emptySlots = fs.gather (ms.map fun m => (m.1, m.2.canonical)) fs.emptySlots := by
      rw [Fields.gather, List.foldlM_map]
    rw [ofValue_canonical_object_iff hnames, Fields.holds_iff, hgather, ok_bind_iff]
    simp only [ok_bind_iff, map_ok_iff, mapError_ok_iff, id, Except.ok.injEq, exists_eq_right]
  refine (Follows.settled (Follows.bind ?_ fun slots _ => (Follows.standing _ e).bind
    fun row _ => .behind hclose (.of_ok rfl)) _).congr hvalue
  exact hmembers

/-- The items between the brackets of a record. -/
theorem follows_row (hfs : fs.StreamsRow) (name : String) {vs : List Value}
    (hrun : Run hasItem (written levels) true c vs e) (hclose : closeList e = .ok ((), c'))
    (hvs : ∀ v ∈ vs, v.Distinct) :
    (settled listEnd (fs.rowReader levels name fs.size 0 true >>= fun row => closeList >>= fun _ =>
      pure row)).Follows ((Schema.record name fs).ofValue (Value.list vs).canonical) c c' := by
  have hrow := (hfs hrun hclose hvs name fs.size 0
    (.wrongLength (vs.map Value.canonical).length .fewerElements) id).settled listEnd
  rw [Value.canonical, Value.canonicalItems_eq_map]
  exact hrow

theorem record_of_ne {name : String} (hl : (c.dropWhile isSpace).rest.head? ≠ some '[')
    (ho : (c.dropWhile isSpace).rest.head? ≠ some '\x7b') (r : fs.Row × Cursor) :
    (Schema.record name fs).reader levels c ≠ .ok r := by
  rw [reader_record_eq, peekBehindSpace_bind]
  generalize (c.dropWhile isSpace).rest.head? = o at hl ho ⊢
  split
  · exact failHere_ne_ok _ _ _
  · exact absurd rfl ho
  · exact absurd rfl hl
  · exact unexpected_ne_ok _ _ _

theorem streams_record (name : String) (hmembers : fs.StreamsMembers) (hrow : fs.StreamsRow) :
    (Schema.record name fs).Streams := by
  intro levels c c' w h hw
  obtain ⟨x, hx, -, -, hlist, hobject⟩ := head_of_written h
  by_cases ho : x = '\x7b'
  · obtain ⟨ms, rfl⟩ := hobject ho
    obtain ⟨hhead, l, e, rfl, hrun, hlength, hclose⟩ := written_object h
    cases hw with
    | object hnames hms =>
      intro r
      rw [reader_record_eq, peekBehindSpace_bind, hhead]
      exact follows_members hmembers name hrun hlength hclose hnames hms r
  by_cases hl : x = '['
  · obtain ⟨vs, rfl⟩ := hlist hl
    obtain ⟨hhead, l, e, rfl, hrun, -, hclose⟩ := written_list h
    cases hw with
    | list hvs =>
      intro r
      rw [reader_record_eq, peekBehindSpace_bind, hhead]
      exact follows_row hrow name hrun hclose hvs r
  · refine .of_fails (record_of_ne (hx ▸ fun heq => hl (Option.some.inj heq))
      (hx ▸ fun heq => ho (Option.some.inj heq))) fun row hrow => ?_
    cases w with
    | list vs => exact hl (Option.some.inj (hx.symm.trans (written_list h).1))
    | object ms => exact ho (Option.some.inj (hx.symm.trans (written_object h).1))
    | _ => nomatch hrow

/-- A fork reads the value itself. -/
theorem streams_fork (member presentNoun : String) (present : Schema) (absentNoun : String)
    (absent : Schema) : (Schema.fork member presentNoun present absentNoun absent).Streams := by
  intro levels c c' w h _
  rw [reader_fork]
  exact .behind (value_ok_iff.mpr ⟨w, h, rfl⟩) (.standing _ _)

end Schema

/-! ### Every schema -/

mutual

/-- Every schema makes of a document what it makes of the value that is written there. -/
theorem Schema.streams : ∀ s : Schema, s.Streams
  | .any => Schema.streams_any
  | .text => Schema.streams_text
  | .flag => Schema.streams_flag
  | .count => Schema.streams_count
  | .signed => Schema.streams_signed
  | .date => Schema.streams_date
  | .tag known other => Schema.streams_tag known other
  | .optional inner => Schema.streams_optional (Schema.streams inner)
  | .list item => Schema.streams_list (Schema.streams item)
  | .record name fields =>
    Schema.streams_record name (Fields.streamsMembers fields) (Fields.streamsRow fields)
  | .fork member presentNoun present absentNoun absent =>
    Schema.streams_fork member presentNoun present absentNoun absent

theorem Fields.streamsMembers : ∀ fs : Fields, fs.StreamsMembers
  | .nil => Fields.streamsMembers_nil
  | .cons _ schema rest =>
    Fields.streamsMembers_cons (Schema.streams schema) (Fields.streamsMembers rest)

theorem Fields.streamsRow : ∀ fs : Fields, fs.StreamsRow
  | .nil => Fields.streamsRow_nil
  | .cons _ schema rest => Fields.streamsRow_cons (Schema.streams schema) (Fields.streamsRow rest)

end

/-- What a schema reads from a document in whose value no object repeats a name is what it reads
from that value. -/
theorem Schema.read_ok_iff (s : Schema) {document : String} {w : Value}
    (h : Value.written document = .ok w) (hw : w.Distinct) {a : s.Val} :
    s.read document = .ok a ↔ s.ofValue w.canonical = .ok a := by
  obtain ⟨c, d, hwritten, hfinish⟩ := whole_eq_ok_iff.mp h
  have hfollows := s.streams hwritten hw
  constructor
  · intro ha
    obtain ⟨c', d', hread, -⟩ := whole_eq_ok_iff.mp ha
    exact (hfollows.ok_iff.mp hread).1
  · intro ha
    exact whole_eq_ok_iff.mpr ⟨c, d, hfollows.ok_iff.mpr ⟨ha, rfl⟩, hfinish⟩

end Json
end CodeQuality
