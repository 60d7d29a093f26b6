import CodeQuality.Proofs.Json.Ordered
import CodeQuality.Proofs.Json.Record
import CodeQuality.Proofs.Json.Canonical

/-!
# What a record accepts

A record is written as an object or as the list of its fields. Seen from a field, the two forms
differ only in how its value is found: by its name, or by its place. `Schema.ofValue_record_iff` is
the one statement for both: the value is a record of the right size, and every field makes its
value of the part that is found for it. A field with two names looks for either of them, and must
not find both.

* `Fields.holds_iff_each` — fields that share no name do not get into each other's way.
* `Label.takes_own_iff`, `Label.takes_own_iff_alias` — what is found under one name, or under two.
* `Schema.ofValue_record_iff` — what a record accepts.
-/

namespace CodeQuality
namespace Json

variable {α : Type}

/-! ### Fields that share no name -/

/-- Is one of the names of `l'` covered by `l`? -/
def Label.clashes (l l' : Label) : Bool := l.covers l'.name || l'.alias?.any l.covers

theorem Label.covers_iff {l : Label} {name : String} :
    l.covers name = true ↔ l.name = name ∨ l.alias? = some name := by
  rw [covers, Bool.or_eq_true, decide_eq_true_eq, decide_eq_true_eq]

theorem Label.not_covers_of_covers {l l' : Label} (h : l.clashes l' = false) {name : String}
    (hname : l'.covers name = true) : l.covers name = false := by
  obtain ⟨hfirst, hsecond⟩ := Bool.or_eq_false_iff.mp h
  rcases covers_iff.mp hname with rfl | halias
  · exact hfirst
  · rwa [halias, Option.any_some] at hsecond

/-- Members that belong to no field are no member of another one either. -/
theorem Label.own_others {l l' : Label} (h : l.clashes l' = false) (ms : List (String × Value)) :
    l'.own (l.others ms) = l'.own ms := by
  rw [own, others, List.filter_filter]
  refine List.filter_congr fun m _ => ?_
  cases hm : l'.covers m.1 with
  | true => rw [not_covers_of_covers h hm]; rfl
  | false => rfl

namespace Fields

def labels : Fields → List Label
  | .nil => []
  | .cons label _ rest => label :: rest.labels

/-- No two fields share a name. -/
def distinct : Fields → Bool
  | .nil => true
  | .cons label _ rest => rest.labels.all (fun l => !label.clashes l) && rest.distinct

/-- Each field makes its value of `row` of the members that it covers. -/
def HoldsEach : (fs : Fields) → List (String × Value) → fs.Row → Prop
  | .nil, _, _ => True
  | .cons label schema rest, ms, (a, row) =>
    label.Takes schema.ofValue schema.zero (label.own ms) a ∧ rest.HoldsEach ms row

/-- Members of another field may as well be there. -/
theorem holdsEach_others {l : Label} {ms : List (String × Value)} : ∀ {fs : Fields} {row : fs.Row},
    (∀ l' ∈ fs.labels, l.clashes l' = false) →
      (fs.HoldsEach (l.others ms) row ↔ fs.HoldsEach ms row)
  | .nil, _, _ => Iff.rfl
  | .cons label schema rest, (a, row), h => by
    have hrest : rest.HoldsEach (l.others ms) row ↔ rest.HoldsEach ms row :=
      holdsEach_others fun l' hl' => h l' (List.mem_cons_of_mem _ hl')
    have hown := Label.own_others (h label List.mem_cons_self) ms
    show label.Takes _ _ (label.own (l.others ms)) a ∧ _ ↔ label.Takes _ _ (label.own ms) a ∧ _
    rw [hown, hrest]

/-- Fields that share no name do not get into each other's way. -/
theorem holds_iff_each : ∀ {fs : Fields} {ms : List (String × Value)} {row : fs.Row},
    fs.distinct = true → (fs.Holds ms row ↔ fs.HoldsEach ms row)
  | .nil, _, _, _ => Iff.rfl
  | .cons label schema rest, ms, (a, row), h => by
    obtain ⟨hlabels, hrest⟩ := Bool.and_eq_true_iff.mp h
    have hclash : ∀ l ∈ rest.labels, label.clashes l = false := fun l hl => by
      have := List.all_eq_true.mp hlabels l hl
      rwa [Bool.not_eq_true'] at this
    show label.Takes _ _ (label.own ms) a ∧ rest.Holds (label.others ms) row ↔ _ ∧ _
    rw [holds_iff_each hrest, holdsEach_others hclash]

end Fields

/-! ### Members that are found by name -/

/-- What a field makes of the part that is found for it, if one is found. -/
def Label.Fetches (label : Label) (read : Value → Except Cause α) (zero : α) :
    Option Value → α → Prop
  | none, a => label.required = false ∧ a = zero
  | some v, a => read v = .ok a

/-- The members called `name`. -/
def named (name : String) (ms : List (String × Value)) : List (String × Value) :=
  ms.filter fun m => m.1 = name

theorem named_eq_nil {name : String} {ms : List (String × Value)}
    (h : ∀ m ∈ ms, m.1 ≠ name) : named name ms = [] :=
  List.filter_eq_nil_iff.mpr fun m hm => by rw [decide_eq_true_eq]; exact h m hm

/-- Of ordered members only one is called so. -/
theorem named_eq {name : String} {ms : List (String × Value)} (h : Ordered ms) :
    named name ms = ((member? name ms).map (name, ·)).toList := by
  induction ms with
  | nil => rfl
  | cons m ms ih =>
    obtain ⟨n, v⟩ := m
    obtain ⟨hm, hms⟩ := List.pairwise_cons.mp h
    rw [named, List.filter_cons, member?_cons]
    -- The names behind it are greater, so none of them is this one.
    by_cases hn : n = name
    · have hnone : named name ms = [] := named_eq_nil fun m' hm' heq => by
        have hlt := hm m' hm'
        rw [hn, heq] at hlt
        exact String.lt_irrefl name hlt
      rw [named] at hnone
      rw [if_pos (decide_eq_true hn), if_pos hn, hnone, hn]
      rfl
    · rw [if_neg (by rwa [decide_eq_true_eq]), if_neg hn]
      exact ih hms

theorem Label.own_eq_named {label : Label} (h : label.alias? = none)
    (ms : List (String × Value)) : label.own ms = named label.name ms := by
  refine List.filter_congr fun m _ => ?_
  rw [covers, h]
  simp [eq_comm]

section Own

variable {label : Label} {read : Value → Except Cause α} {zero a : α} {ms : List (String × Value)}

/-- A field with one name makes its value of the member with that name. -/
theorem Label.takes_own_iff (hms : Ordered ms) (h : label.alias? = none) :
    label.Takes read zero (label.own ms) a ↔
      label.Fetches read zero (member? label.name ms) a := by
  rw [own_eq_named h, named_eq hms]
  cases member? label.name ms <;> exact Iff.rfl

/-- The members of a field with two names are those with the one name and those with the other. -/
theorem Label.own_perm_named {other : String} (h : label.alias? = some other)
    (hne : label.name ≠ other) (ms : List (String × Value)) :
    (label.own ms).Perm (named label.name ms ++ named other ms) := by
  induction ms with
  | nil => exact List.Perm.refl _
  | cons m ms ih =>
    have hcovers : label.covers m.1 = (decide (m.1 = label.name) || decide (m.1 = other)) := by
      rw [covers, h]
      simp [eq_comm]
    rw [own_cons, named, named, List.filter_cons, List.filter_cons, hcovers]
    by_cases hfirst : m.1 = label.name
    · have hsecond : m.1 ≠ other := hfirst ▸ hne
      rw [decide_eq_true hfirst, decide_eq_false hsecond]
      exact ih.cons m
    · rw [decide_eq_false hfirst]
      by_cases hsecond : m.1 = other
      · rw [decide_eq_true hsecond]
        exact (ih.cons m).trans List.perm_middle.symm
      · rw [decide_eq_false hsecond]
        exact ih

/-- A required field with two names makes its value of the only member that has either of them. -/
theorem Label.takes_own_iff_alias {other : String} (hms : Ordered ms)
    (h : label.alias? = some other) (hne : label.name ≠ other) (hreq : label.required = true) :
    label.Takes read zero (label.own ms) a ↔
      ∃ v, read v = .ok a ∧
        (member? label.name ms = some v ∧ member? other ms = none ∨
          member? label.name ms = none ∧ member? other ms = some v) := by
  have hperm := own_perm_named h hne ms
  rw [named_eq hms, named_eq hms] at hperm
  have htakes : label.Takes read zero (label.own ms) a ↔ label.Takes read zero
      (((member? label.name ms).map (label.name, ·)).toList ++
        ((member? other ms).map (other, ·)).toList) a :=
    ⟨fun ht => ht.perm hperm, fun ht => ht.perm hperm.symm⟩
  rw [htakes]
  -- Both names may be missing or there; only one of them may be there.
  cases member? label.name ms with
  | none =>
    cases member? other ms with
    | none =>
      constructor
      · rintro ⟨h, -⟩
        rw [hreq] at h
        nomatch h
      · rintro ⟨v, -, ⟨h, -⟩ | ⟨-, h⟩⟩ <;> nomatch h
    | some w =>
      constructor
      · exact fun ha => ⟨w, ha, .inr ⟨rfl, rfl⟩⟩
      · rintro ⟨v, ha, ⟨h, -⟩ | ⟨-, h⟩⟩
        · nomatch h
        · exact Option.some.inj h ▸ ha
  | some v =>
    cases member? other ms with
    | none =>
      constructor
      · exact fun ha => ⟨v, ha, .inl ⟨rfl, rfl⟩⟩
      · rintro ⟨w, ha, ⟨h, -⟩ | ⟨h, -⟩⟩
        · exact Option.some.inj h ▸ ha
        · nomatch h
    | some w =>
      constructor
      · exact False.elim
      · rintro ⟨u, -, ⟨-, h⟩ | ⟨h, -⟩⟩ <;> nomatch h

end Own

/-! ### Records that are written as lists -/

namespace Fields

/-- The fields make `row` of the first of some values, and leave `left`. -/
def HoldsFront : (fs : Fields) → (vs left : List Value) → fs.Row → Prop
  | .nil, vs, left, _ => left = vs
  | .cons label schema rest, vs, left, (a, row) =>
    label.Fetches schema.ofValue schema.zero vs.head? a ∧ rest.HoldsFront vs.tail left row

section RowOfValues

variable {label : Label} {schema : Schema} {rest : Fields} {name : String} {total index : Nat}
  {vs left : List Value} {a : schema.Val} {row : rest.Row}

theorem rowOfValues_cons (v : Value) (vs : List Value) :
    (Fields.cons label schema rest).rowOfValues name total index (v :: vs) =
      schema.ofValue v >>= fun a => rest.rowOfValues name total (index + 1) vs >>= fun r =>
        .ok (rowCons label a r.1, r.2) := rfl

theorem rowOfValues_nil :
    (Fields.cons label schema rest).rowOfValues name total index [] =
      if label.required then .error (.wrongLength index (.elements name total))
      else rest.rowOfValues name total (index + 1) [] >>= fun r =>
        .ok (rowCons label schema.zero r.1, r.2) := rfl

theorem rowOfValues_cons_iff {v : Value} :
    (Fields.cons label schema rest).rowOfValues name total index (v :: vs) =
        .ok (rowCons label a row, left) ↔
      schema.ofValue v = .ok a ∧ rest.rowOfValues name total (index + 1) vs = .ok (row, left) := by
  rw [rowOfValues_cons, ok_bind_iff]
  constructor
  · rintro ⟨a', ha, h⟩
    obtain ⟨⟨row', left'⟩, hr, heq⟩ := ok_bind_iff.mp h
    obtain ⟨hrow, rfl⟩ := Prod.mk.inj (Except.ok.inj heq)
    obtain ⟨rfl, rfl⟩ := Prod.mk.inj hrow
    exact ⟨ha, hr⟩
  · rintro ⟨ha, hr⟩
    exact ⟨a, ha, ok_bind_iff.mpr ⟨(row, left), hr, rfl⟩⟩

theorem rowOfValues_nil_iff :
    (Fields.cons label schema rest).rowOfValues name total index [] =
        .ok (rowCons label a row, left) ↔
      (label.required = false ∧ a = schema.zero) ∧
        rest.rowOfValues name total (index + 1) [] = .ok (row, left) := by
  rw [rowOfValues_nil]
  cases hreq : label.required with
  | true =>
    refine ⟨(fun h => nomatch h), ?_⟩
    rintro ⟨⟨h, -⟩, -⟩
    nomatch h
  | false =>
    rw [if_neg Bool.false_ne_true, ok_bind_iff]
    constructor
    · rintro ⟨⟨row', left'⟩, hr, heq⟩
      obtain ⟨hrow, rfl⟩ := Prod.mk.inj (Except.ok.inj heq)
      obtain ⟨ha, rfl⟩ := Prod.mk.inj hrow
      exact ⟨⟨rfl, ha.symm⟩, hr⟩
    · rintro ⟨⟨-, rfl⟩, hr⟩
      exact ⟨(row, left), hr, rfl⟩

end RowOfValues

theorem rowOfValues_iff {name : String} {total : Nat} : ∀ {fs : Fields} {index : Nat}
    {vs left : List Value} {row : fs.Row},
    fs.rowOfValues name total index vs = .ok (row, left) ↔ fs.HoldsFront vs left row
  | .nil, _, vs, left, () => by
    show Except.ok ((), vs) = Except.ok ((), left) ↔ left = vs
    rw [Except.ok.injEq, Prod.mk.injEq, eq_comm (a := left)]
    exact and_iff_right rfl
  | .cons _ _ _, _, _ :: _, _, (_, _) =>
    rowOfValues_cons_iff.trans (and_congr_right fun _ => rowOfValues_iff)
  | .cons _ _ _, _, [], _, (_, _) =>
    rowOfValues_nil_iff.trans (and_congr_right fun _ => rowOfValues_iff)

/-- Each field makes its value of the part that is found for it; `index` is the place of the first
field. -/
def Describes (part? : Nat → String → Option Value) : (fs : Fields) → (index : Nat) → fs.Row → Prop
  | .nil, _, _ => True
  | .cons label schema rest, index, (a, row) =>
    label.Fetches schema.ofValue schema.zero (part? index label.name) a ∧
      rest.Describes part? (index + 1) row

end Fields

/-- Is the value a record of at most `size` fields? -/
def Value.IsRecord (size : Nat) : Value → Prop
  | .object _ => True
  | .list vs => vs.length ≤ size
  | _ => False

/-- The part of a record that stands at a place in a list or under a name in an object. -/
def Value.part? : Value → (index : Nat) → (name : String) → Option Value
  | .object ms, _, name => member? name ms
  | .list vs, index, _ => vs[index]?
  | _, _, _ => none

theorem Value.Ordered.of_object {ms : List (String × Value)} (h : (Value.object ms).Ordered) :
    Json.Ordered ms ∧ ∀ m ∈ ms, Value.Ordered m.2 := by
  cases h with
  | object ho hms => exact ⟨ho, hms⟩

theorem Value.Ordered.member? {ms : List (String × Value)} (hv : (Value.object ms).Ordered)
    {name : String} {w : Value} (h : Json.member? name ms = some w) : w.Ordered :=
  hv.of_object.2 _ (mem_of_member? h)

/-- The parts of an ordered value are ordered. -/
theorem Value.Ordered.part? {v w : Value} (hv : v.Ordered) {index : Nat} {name : String}
    (h : v.part? index name = some w) : w.Ordered := by
  cases hv with
  | object ho hms => exact Ordered.member? (.object ho hms) h
  | list hvs => exact hvs w (List.mem_of_getElem? h)
  | _ => nomatch h

namespace Fields

/-- Found by name, the parts are the members. -/
theorem holdsEach_iff_describes {ms : List (String × Value)} (hms : Ordered ms) :
    ∀ {fs : Fields} {row : fs.Row}, (∀ l ∈ fs.labels, l.alias? = none) → ∀ index,
      (fs.HoldsEach ms row ↔ fs.Describes (Value.object ms).part? index row)
  | .nil, _, _, _ => Iff.rfl
  | .cons _ _ _, (_, _), h, index =>
    and_congr (Label.takes_own_iff hms (h _ List.mem_cons_self))
      (holdsEach_iff_describes hms (fun l hl => h l (List.mem_cons_of_mem _ hl)) (index + 1))

/-- Found by place, the parts are the items, and none may be left over. -/
theorem holdsFront_iff_describes (vs : List Value) : ∀ {fs : Fields} {row : fs.Row} (index : Nat),
    fs.HoldsFront (vs.drop index) [] row ↔
      vs.length ≤ index + fs.size ∧ fs.Describes (Value.list vs).part? index row
  | .nil, _, index => by
    show [] = vs.drop index ↔ vs.length ≤ index + 0 ∧ True
    rw [eq_comm, List.drop_eq_nil_iff, Nat.add_zero, and_true]
  | .cons label schema rest, (a, row), index => by
    have hrest : rest.HoldsFront (vs.drop (index + 1)) [] row ↔ vs.length ≤ index + 1 + rest.size ∧
        rest.Describes (Value.list vs).part? (index + 1) row :=
      holdsFront_iff_describes vs (index + 1)
    show label.Fetches _ _ (vs.drop index).head? a ∧ rest.HoldsFront (vs.drop index).tail [] row ↔
      vs.length ≤ index + (rest.size + 1) ∧ label.Fetches _ _ vs[index]? a ∧ _
    rw [List.head?_drop, List.tail_drop, hrest, and_left_comm, Nat.add_right_comm, Nat.add_assoc]

end Fields

/-- A record is read from a list if its fields use up the items. -/
theorem Schema.ofValue_list_iff {name : String} {fs : Fields} {vs : List Value} {row : fs.Row} :
    (Schema.record name fs).ofValue (.list vs) = .ok row ↔ fs.HoldsFront vs [] row := by
  refine (ok_bind_iff (x := fs.rowOfValues name fs.size 0 vs) (f := fun r =>
    if r.2.isEmpty then .ok r.1 else .error (.wrongLength vs.length .fewerElements))).trans ?_
  have hvalues : fs.rowOfValues name fs.size 0 vs = .ok (row, []) ↔ fs.HoldsFront vs [] row :=
    Fields.rowOfValues_iff
  rw [← hvalues]
  constructor
  · rintro ⟨⟨row', left⟩, hr, h⟩
    cases left with
    | nil => exact Except.ok.inj h ▸ hr
    | cons v left => nomatch h
  · exact fun hr => ⟨(row, []), hr, rfl⟩

/-- A record whose fields have one name each accepts what has the right size and a fitting part for
each field. -/
theorem Schema.ofValue_record_iff {name : String} {fs : Fields} {v : Value} {row : fs.Row}
    (hfs : fs.distinct = true) (hnames : ∀ l ∈ fs.labels, l.alias? = none) (hv : v.Ordered) :
    (Schema.record name fs).ofValue v = .ok row ↔
      v.IsRecord fs.size ∧ fs.Describes v.part? 0 row := by
  cases hv with
  | object ho _ =>
    refine (Schema.ofValue_object_iff.trans (Fields.holds_iff_each hfs)).trans ?_
    exact (Fields.holdsEach_iff_describes ho hnames 0).trans (and_iff_right trivial).symm
  | @list vs _ =>
    refine Iff.trans ofValue_list_iff ?_
    have hparts : fs.HoldsFront (vs.drop 0) [] row ↔ vs.length ≤ 0 + fs.size ∧
        fs.Describes (Value.list vs).part? 0 row := Fields.holdsFront_iff_describes vs 0
    rwa [List.drop_zero, Nat.zero_add] at hparts
  | _ => exact ⟨(fun h => nomatch h), fun h => h.1.elim⟩

/-! ### Values of single fields -/

/-- `a` stands for the value that is found, or is `absent` if none is. -/
def Omittable (P : Value → α → Prop) (absent : α) : Option Value → α → Prop
  | none, a => a = absent
  | some v, a => P v a

namespace Value

/-- Null stands for nothing. -/
def Nullable (P : Value → α → Prop) : Value → Option α → Prop
  | .null, o => o = none
  | v, o => ∃ a, o = some a ∧ P v a

def IsText (v : Value) (s : String) : Prop := v = .text s

def IsFlag (v : Value) (b : Bool) : Prop := v = .flag b

/-- An integer from 0 to 2^32 - 1, written without sign, fraction and exponent. -/
def IsCount (v : Value) (n : UInt32) : Prop := v = .number (.integer n.toNat)

/-- An integer from -2^31 to 2^31 - 1, written without fraction and exponent. Zero has no sign. -/
def IsSigned (v : Value) (n : Int32) : Prop := v = .number (.integer n.toInt)

/-- Nothing, or the text of a timestamp. -/
def IsDate : Value → Option Instant → Prop := Nullable fun v t => ∃ s, v = .text s ∧
  Timestamp.read? s = some t

end Value

namespace Schema

theorem ofValue_text_iff {v : Value} {s : String} : Schema.text.ofValue v = .ok s ↔ v.IsText s := by
  cases v with
  | text s' =>
    exact ⟨fun h => congrArg Value.text (Except.ok.inj h),
      fun h => congrArg Except.ok (Value.text.inj h)⟩
  | _ => exact ⟨(fun h => nomatch h), (fun h => nomatch h)⟩

theorem ofValue_flag_iff {v : Value} {b : Bool} : Schema.flag.ofValue v = .ok b ↔ v.IsFlag b := by
  cases v with
  | flag b' =>
    exact ⟨fun h => congrArg Value.flag (Except.ok.inj h),
      fun h => congrArg Except.ok (Value.flag.inj h)⟩
  | _ => exact ⟨(fun h => nomatch h), (fun h => nomatch h)⟩

theorem ofValue_count_iff {v : Value} {n : UInt32} :
    Schema.count.ofValue v = .ok n ↔ v.IsCount n := by
  constructor
  · intro h
    match v with
    | .number (.integer i) =>
      have hcount : countOf (.integer i) = .ok n := h
      rw [countOf] at hcount
      split at hcount
      · next hrange =>
        simp only [Bool.and_eq_true, decide_eq_true_eq] at hrange
        have hn : n.toNat = i.toNat := by
          rw [← Except.ok.inj hcount, UInt32.toNat_ofNat']
          omega
        rw [Value.IsCount, hn, Int.toNat_of_nonneg hrange.1]
      · cases hcount
  · rintro rfl
    exact countOf_toNat n

theorem ofValue_signed_iff {v : Value} {n : Int32} :
    Schema.signed.ofValue v = .ok n ↔ v.IsSigned n := by
  constructor
  · intro h
    match v with
    | .number (.integer i) =>
      have hsigned : signedOf (.integer i) = .ok n := h
      rw [signedOf] at hsigned
      split at hsigned
      · next hrange =>
        simp only [Bool.and_eq_true, decide_eq_true_eq] at hrange
        have hn : n.toInt = i := by
          rw [← Except.ok.inj hsigned, Int32.toInt_ofInt_of_le hrange.1 hrange.2]
        rw [Value.IsSigned, hn]
      · cases hsigned
  · rintro rfl
    exact signedOf_toInt n

theorem ofValue_date_iff {v : Value} {d : Option Instant} :
    Schema.date.ofValue v = .ok d ↔ v.IsDate d := by
  cases v with
  | null => exact ⟨fun h => (Except.ok.inj h).symm, fun h => congrArg Except.ok h.symm⟩
  | text s =>
    rw [ofValue_date_text, dateOf]
    constructor
    · intro h
      split at h
      · next t ht => exact ⟨t, (Except.ok.inj h).symm, s, rfl, ht⟩
      · cases h
    · rintro ⟨t, rfl, s', hs, ht⟩
      rw [Value.text.inj hs, ht]
      rfl
  | _ =>
    constructor
    · intro h
      cases h
    · rintro ⟨_, _, _, h, _⟩
      cases h

/-- A tag is named by a text, or by the only member of an object, whose value is null. -/
theorem ofValue_tag_iff {known : List String} {other : String} {v : Value}
    {tag : Option (Fin known.length)} : (Schema.tag known other).ofValue v = .ok tag ↔
      ∃ name, (v = .text name ∨ v = .object [(name, .null)]) ∧ tag = tagOf known name := by
  have htag : (Schema.tag known other).ofValue v = tagOfValue known v := rfl
  rw [htag]
  constructor
  · intro h
    unfold tagOfValue at h
    split at h
    · next name => exact ⟨name, .inl rfl, (Except.ok.inj h).symm⟩
    · next name => exact ⟨name, .inr rfl, (Except.ok.inj h).symm⟩
    all_goals nomatch h
  · rintro ⟨name, rfl | rfl, rfl⟩ <;> rfl

/-- What may be null is null or what it may be otherwise. -/
theorem ofValue_optional_iff {inner : Schema} {P : Value → α → Prop} {f : α → inner.Val}
    {v : Value} {o : Option α} (h : ∀ a, inner.ofValue v = .ok (f a) ↔ P v a) :
    (Schema.optional inner).ofValue v = .ok (o.map f) ↔ Value.Nullable P v o := by
  by_cases hv : v = .null
  · subst hv
    cases o with
    | none => exact ⟨fun _ => rfl, fun _ => rfl⟩
    | some a => exact ⟨(fun h => nomatch h), (fun h => nomatch h)⟩
  · have hnullable : Value.Nullable P v o ↔ ∃ a, o = some a ∧ P v a := by
      cases v with
      | null => exact absurd rfl hv
      | _ => exact Iff.rfl
    rw [ofValue_optional hv, hnullable]
    constructor
    · intro heq
      cases hx : inner.ofValue v with
      | error e => rw [hx] at heq; nomatch heq
      | ok x =>
        rw [hx] at heq
        obtain ⟨a, rfl, ha⟩ := Option.map_eq_some_iff.mp (Except.ok.inj heq).symm
        exact ⟨a, rfl, (h a).mp (ha ▸ hx)⟩
    · rintro ⟨a, rfl, ha⟩
      rw [(h a).mpr ha]
      rfl

end Schema

section Found

variable {β : Type} {label : Label} {read : Value → Except Cause β} {zero : β}
  {o : Option Value}

/-- A field that may be absent makes its value of the part that is found, if one is. -/
theorem Label.fetches_iff {P : Value → α → Prop} {f : α → β} {absent a : α}
    (hreq : label.required = false) (hzero : f a = zero ↔ a = absent)
    (hread : ∀ v, o = some v → (read v = .ok (f a) ↔ P v a)) :
    label.Fetches read zero o (f a) ↔ Omittable P absent o a := by
  cases o with
  | none => exact (and_iff_right hreq).trans hzero
  | some v => exact hread v rfl

/-- A field that must be there makes its value of the part that is found. -/
theorem Label.fetches_iff_required {b : β} (hreq : label.required = true) :
    label.Fetches read zero o b ↔ ∃ v, o = some v ∧ read v = .ok b := by
  cases o with
  | none =>
    refine ⟨fun h => ?_, fun ⟨_, h, _⟩ => nomatch h⟩
    rw [h.1] at hreq
    nomatch hreq
  | some v => exact ⟨fun h => ⟨v, rfl, h⟩, fun ⟨w, hw, h⟩ => Option.some.inj hw ▸ h⟩

end Found

section Fields

variable {o : Option Value} (label : Label) (hreq : label.required = false)

include hreq

/-- A field that may be absent or null. -/
theorem Label.fetches_nullable (inner : Schema) {P : Value → α → Prop} {f : α → inner.Val}
    {a : Option α} (h : ∀ v, o = some v → ∀ a, inner.ofValue v = .ok (f a) ↔ P v a) :
    label.Fetches (Schema.optional inner).ofValue (Schema.optional inner).zero o (a.map f) ↔
      Omittable (Value.Nullable P) none o a :=
  Label.fetches_iff (f := Option.map f) hreq Option.map_eq_none_iff fun v hv =>
    Schema.ofValue_optional_iff (h v hv)

theorem Label.fetches_nullable_text {a : Option String} :
    label.Fetches (Schema.optional .text).ofValue (Schema.optional .text).zero o a ↔
      Omittable (Value.Nullable Value.IsText) none o a := by
  have h := label.fetches_nullable hreq Schema.text (f := id) (o := o) (a := a)
    fun _ _ _ => Schema.ofValue_text_iff
  rwa [Option.map_id] at h

theorem Label.fetches_nullable_count {a : Option UInt32} :
    label.Fetches (Schema.optional .count).ofValue (Schema.optional .count).zero o a ↔
      Omittable (Value.Nullable Value.IsCount) none o a := by
  have h := label.fetches_nullable hreq Schema.count (f := id) (o := o) (a := a)
    fun _ _ _ => Schema.ofValue_count_iff
  rwa [Option.map_id] at h

theorem Label.fetches_flag {a : Bool} :
    label.Fetches Schema.flag.ofValue Schema.flag.zero o a ↔ Omittable Value.IsFlag false o a :=
  Label.fetches_iff (f := id) hreq Iff.rfl fun _ _ => Schema.ofValue_flag_iff

theorem Label.fetches_count {a : UInt32} :
    label.Fetches Schema.count.ofValue Schema.count.zero o a ↔ Omittable Value.IsCount 0 o a :=
  Label.fetches_iff (f := id) hreq Iff.rfl fun _ _ => Schema.ofValue_count_iff

theorem Label.fetches_date {a : Option Instant} :
    label.Fetches Schema.date.ofValue Schema.date.zero o a ↔ Omittable Value.IsDate none o a :=
  Label.fetches_iff (f := id) hreq Iff.rfl fun _ _ => Schema.ofValue_date_iff

end Fields

theorem Label.fetches_text (label : Label) (hreq : label.required = true) {o : Option Value}
    {s : String} : label.Fetches Schema.text.ofValue Schema.text.zero o s ↔ o = some (.text s) := by
  refine (Label.fetches_iff_required hreq).trans ?_
  constructor
  · rintro ⟨v, rfl, h⟩
    exact congrArg some (Schema.ofValue_text_iff.mp h)
  · exact fun h => ⟨_, h, Schema.ofValue_text_iff.mpr rfl⟩

/-! ### Forks -/

section Fork

variable {member presentNoun absentNoun : String} {present absent : Schema} {v : Value}

/-- A fork gives what one schema reads if the member is there. -/
theorem Schema.ofValue_fork_inl_iff {a : present.Val} :
    (Schema.fork member presentNoun present absentNoun absent).ofValue v = .ok (.inl a) ↔
      (v.get? member).isSome = true ∧ present.ofValue v = .ok a := by
  cases hv : (v.get? member).isSome with
  | true =>
    rw [ofValue_fork, if_pos hv]
    refine (mapError_ok_iff.trans map_ok_iff).trans ⟨?_, fun h => ⟨a, h.2, rfl⟩⟩
    rintro ⟨b, hb, heq⟩
    exact ⟨rfl, Sum.inl.inj heq ▸ hb⟩
  | false =>
    rw [ofValue_fork, if_neg (by rw [hv]; decide)]
    refine ⟨fun h => ?_, (fun h => nomatch h.1)⟩
    obtain ⟨b, -, heq⟩ := map_ok_iff.mp (mapError_ok_iff.mp h)
    nomatch heq

/-- A fork gives what the other schema reads if the member is not there. -/
theorem Schema.ofValue_fork_inr_iff {a : absent.Val} :
    (Schema.fork member presentNoun present absentNoun absent).ofValue v = .ok (.inr a) ↔
      (v.get? member).isSome = false ∧ absent.ofValue v = .ok a := by
  cases hv : (v.get? member).isSome with
  | true =>
    rw [ofValue_fork, if_pos hv]
    refine ⟨fun h => ?_, (fun h => nomatch h.1)⟩
    obtain ⟨b, -, heq⟩ := map_ok_iff.mp (mapError_ok_iff.mp h)
    nomatch heq
  | false =>
    rw [ofValue_fork, if_neg (by rw [hv]; decide)]
    refine (mapError_ok_iff.trans map_ok_iff).trans ⟨?_, fun h => ⟨a, h.2, rfl⟩⟩
    rintro ⟨b, hb, heq⟩
    exact ⟨rfl, Sum.inr.inj heq ▸ hb⟩

/-- The fault of a fork names the kind of record that the value was taken for. -/
theorem Schema.cause_of_ofValue_fork {cause : Cause}
    (h : (Schema.fork member presentNoun present absentNoun absent).ofValue v = .error cause) :
    ∃ c, cause =
      .badRecord (if (v.get? member).isSome then presentNoun else absentNoun) c := by
  rw [ofValue_fork] at h
  split at h
  · next hv =>
    obtain ⟨c, -, rfl⟩ := mapError_error_iff.mp h
    exact ⟨c, by rw [if_pos hv]⟩
  · next hv =>
    obtain ⟨c, -, rfl⟩ := mapError_error_iff.mp h
    exact ⟨c, by rw [if_neg hv]⟩

/-- A fork makes of a document what it makes of the value that the document denotes. -/
theorem Schema.read_fork (member presentNoun : String) (present : Schema) (absentNoun : String)
    (absent : Schema) {document : String} (h : Value.read document = .ok v) :
    ∃ c, (Schema.fork member presentNoun present absentNoun absent).read document =
      ((Schema.fork member presentNoun present absentNoun absent).ofValue v).mapError
        (.standing · c) := by
  obtain ⟨c, d, hc, hd⟩ := Document.whole_eq_ok_iff.mp h
  have hreader : (Schema.fork member presentNoun present absentNoun absent).reader maxLevels
      (Cursor.ofString document) = Reader.standing
        ((Schema.fork member presentNoun present absentNoun absent).ofValue v) c := by
    rw [reader_fork, Reader.bind_of_ok hc]
  refine ⟨c, ?_⟩
  cases hx : (Schema.fork member presentNoun present absentNoun absent).ofValue v with
  | ok x =>
    rw [hx] at hreader
    exact Document.whole_eq_ok_iff.mpr ⟨c, d, hreader, hd⟩
  | error cause =>
    rw [hx] at hreader
    exact Document.whole_of_error hreader

end Fork

end Json
end CodeQuality
