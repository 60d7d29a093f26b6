import CodeQuality.Json.Document
import CodeQuality.Proofs.Json.Members
import CodeQuality.Proofs.Json.Reading

/-!
# What a document denotes

The members of an object that is read from a document are in order, so that no name comes twice,
however often the document repeats it. This is a property of everything that a reader gives,
whatever it takes up; `Reader.Gives` states such properties, and is carried through `>>=` and
through the loops over items and members.

* `Reader.Gives.bind`, `Container.gives_items`, `Container.gives_members` — how properties are
  carried.
* `Value.ordered_of_read` — the value of a document is ordered.
-/

namespace CodeQuality
namespace Json

variable {α β σ : Type}

/-- Whatever `reader` gives has the property. -/
def Reader.Gives (reader : Reader α) (P : α → Prop) : Prop :=
  ∀ c a c', reader c = .ok (a, c') → P a

namespace Reader

theorem Gives.pure {P : α → Prop} {a : α} (h : P a) : (Pure.pure a : Reader α).Gives P := by
  intro c b c' heq
  obtain ⟨rfl, -⟩ := Prod.mk.inj (Except.ok.inj heq)
  exact h

/-- What a failure gives has every property. -/
theorem Gives.failHere {P : α → Prop} (cause : Cause) :
    (Reader.failHere cause : Reader α).Gives P := fun _ _ _ h => nomatch h

theorem Gives.failAhead {P : α → Prop} (cause : Cause) :
    (Reader.failAhead cause : Reader α).Gives P := fun _ _ _ h => nomatch h

theorem Gives.fail {P : α → Prop} (cause : Cause) :
    (Reader.fail cause : Reader α).Gives P := fun _ _ _ h => nomatch h

theorem Gives.of_forall {P : α → Prop} (h : ∀ a, P a) (reader : Reader α) : reader.Gives P :=
  fun _ a _ _ => h a

/-- A property of what was read goes on to what is made of it. -/
theorem Gives.bind {reader : Reader α} {f : α → Reader β} {P : α → Prop} {Q : β → Prop}
    (hr : reader.Gives P) (hf : ∀ a, P a → (f a).Gives Q) : (reader >>= f).Gives Q := by
  intro c b c' h
  cases hc : reader c with
  | error e => rw [bind_of_error hc] at h; nomatch h
  | ok r =>
    obtain ⟨a, d⟩ := r
    rw [bind_of_ok hc] at h
    exact hf a (hr c a d hc) d b c' h

/-- A property that does not depend on what was read before. -/
theorem Gives.then {reader : Reader α} {f : α → Reader β} {Q : β → Prop}
    (hf : ∀ a, (f a).Gives Q) : (reader >>= f).Gives Q :=
  Gives.bind (Gives.of_forall (fun _ => trivial) reader) fun a _ => hf a

theorem Gives.settled {reader : Reader α} {P : α → Prop} (h : reader.Gives P)
    (finish : Cursor → Cursor) : (Reader.settled finish reader).Gives P := by
  intro c a c' heq
  rw [Reader.settled] at heq
  split at heq
  · next hc => exact h c a c' (hc.trans heq)
  · cases heq

end Reader

/-! ### Loops -/

namespace Container

open Reader

/-- A property of every item is one of all items. -/
theorem gives_items {item : Reader α} {P : α → Prop} (h : item.Gives P) :
    ∀ (fuel : Nat) (first : Bool) (read : List α), (∀ a ∈ read, P a) →
      (items item fuel first read).Gives fun as => ∀ a ∈ as, P a
  | 0, _, _, _ => Gives.failHere _
  | fuel + 1, first, read, hread => by
    rw [items]
    refine Gives.then fun more => ?_
    split
    · refine Gives.bind h fun a ha => gives_items h fuel false (a :: read) ?_
      exact List.forall_mem_cons.mpr ⟨ha, hread⟩
    · exact Gives.pure fun a ha => hread a (List.mem_reverse.mp ha)

/-- What every member keeps is kept. -/
theorem gives_members {step : String → σ → Reader σ} {I : σ → Prop}
    (h : ∀ name s, I s → (step name s).Gives I) :
    ∀ (fuel : Nat) (first : Bool) (s : σ), I s → (members step fuel first s).Gives I
  | 0, _, _, _ => Gives.failHere _
  | fuel + 1, first, s, hs => by
    rw [members]
    refine Gives.then fun more => ?_
    split
    · refine Gives.then fun _ => Gives.then fun name => ?_
      exact Gives.bind (h name s hs) fun s' hs' => gives_members h fuel false s' hs'
    · exact Gives.pure hs

end Container

/-! ### Values -/

/-- The members of all objects in a value are in order. -/
inductive Value.Ordered : Value → Prop
  | null : Ordered .null
  | flag (b : Bool) : Ordered (.flag b)
  | number (n : Number) : Ordered (.number n)
  | text (s : String) : Ordered (.text s)
  | list {vs : List Value} (h : ∀ v ∈ vs, Ordered v) : Ordered (.list vs)
  | object {ms : List (String × Value)} (ho : Json.Ordered ms) (h : ∀ m ∈ ms, Ordered m.2) :
    Ordered (.object ms)

namespace Document

open Reader Container

/-- A value that holds no others is ordered. -/
theorem gives_leaf : leaf.Gives fun l => ∀ v, l = .value v → v.Ordered := by
  rw [leaf]
  refine Gives.then fun c => ?_
  split
  · exact Gives.failHere _
  · refine Gives.then fun _ => Gives.then fun _ => Gives.pure ?_
    rintro v ⟨⟩
    exact .null
  · refine Gives.then fun _ => Gives.then fun _ => Gives.pure ?_
    rintro v ⟨⟩
    exact .flag true
  · refine Gives.then fun _ => Gives.then fun _ => Gives.pure ?_
    rintro v ⟨⟩
    exact .flag false
  · refine Gives.then fun _ => Gives.then fun _ => Gives.pure ?_
    rintro v ⟨⟩
    exact .text _
  · exact Gives.pure fun v h => nomatch h
  · exact Gives.pure fun v h => nomatch h
  · split
    · refine Gives.then fun _ => Gives.pure ?_
      rintro v ⟨⟩
      exact .number _
    · exact Gives.failAhead _

/-- Every value that is read is ordered. -/
theorem gives_value : ∀ levels : Nat, (value levels).Gives Value.Ordered
  | 0 => by
    rw [value]
    refine Gives.bind gives_leaf fun l hl => ?_
    split
    · exact Gives.pure (hl _ rfl)
    · exact Gives.failAhead _
  | levels + 1 => by
    have ih := gives_value levels
    rw [value]
    refine Gives.bind gives_leaf fun l hl => ?_
    split
    · exact Gives.pure (hl _ rfl)
    · refine Gives.then fun _ => Gives.settled ?_ _
      refine Gives.bind (P := fun vs => ∀ v ∈ vs, Value.Ordered v) ?_ fun vs hvs => ?_
      · exact Gives.then fun c => gives_items ih _ true [] (List.forall_mem_nil _)
      · exact Gives.then fun _ => Gives.pure (.list hvs)
    · refine Gives.then fun _ => Gives.settled ?_ _
      refine Gives.bind (P := fun ms => Json.Ordered ms ∧ ∀ m ∈ ms, Value.Ordered m.2) ?_
        fun ms hms => ?_
      · refine Gives.then fun c => gives_members ?_ _ true []
          ⟨ordered_nil, List.forall_mem_nil _⟩
        intro name ms hms
        refine Gives.then fun _ => Gives.bind ih fun v hv => Gives.pure ?_
        refine ⟨insert_ordered name v hms.1, fun m hm => ?_⟩
        rcases mem_insert hm with rfl | hm
        · exact hv
        · exact hms.2 m hm
      · exact Gives.then fun _ => Gives.pure (.object hms.1 hms.2)

end Document

/-- The value that a document denotes is ordered. -/
theorem Value.ordered_of_read {document : String} {v : Value} (h : Value.read document = .ok v) :
    v.Ordered := by
  obtain ⟨c, d, hc, -⟩ := Document.whole_eq_ok_iff.mp h
  exact Document.gives_value maxLevels _ v c hc

end Json
end CodeQuality
