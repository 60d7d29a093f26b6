import CodeQuality.Proofs.Json.RecordText
import Mathlib.Data.List.Perm.Basic

/-!
# Members in another order

What becomes of an object if its members change places, or if one more comes in. Names and texts
change places with their members. Where a value is built, its members are sorted, and then only the
names tell what is found; the fields of a record look at nothing else than what is found under their
names.

* `MembersText.Reorders` — members that change places.
* `Ordered.ext`, `member?_perm` — what the order of names leaves open.
* `Fields.holdsEach_congr` — what the fields look at.
* `MembersText.WellFormed.value_iff` — the value that an object denotes.
-/

namespace CodeQuality
namespace Json

open Reader Container

variable {α β γ : Type}

/-! ### Places -/

/-- What corresponds to some things changes places with them. -/
theorem exists_perm_of_map_eq {f : α → γ} {g : β → γ} {as as' : List α} {bs : List β}
    (h : as.map f = bs.map g) (hp : as'.Perm as) :
    ∃ bs' : List β, as'.map f = bs'.map g ∧ bs'.Perm bs := by
  have hsame : List.Forall₂ (fun a b => f a = g b) as bs := by
    rwa [← List.forall₂_map_left_iff (R := fun c b => c = g b), ← List.forall₂_map_right_iff,
      List.forall₂_eq_eq_eq]
  obtain ⟨bs', hbs', hperm⟩ := List.perm_comp_forall₂ hp hsame
  refine ⟨bs', ?_, hperm⟩
  rwa [← List.forall₂_eq_eq_eq, List.forall₂_map_left_iff, List.forall₂_map_right_iff]

/-! ### Blanks -/

/-- Is this the text `core` with blanks around it? -/
def Around (core cs : List Char) : Prop := ∃ p : Padded, p.core = core ∧ cs = p.chars

/-- Blanks around a value do not matter. -/
theorem Reader.Regular.whole_iff_of_around {reader : Reader α} (h : reader.Regular)
    {core cs : List Char} {a : α} (hcore : IsValue core) (hcs : Around core cs) :
    Document.whole reader (String.ofList cs) = .ok a ↔
      ∀ rest, Stops rest → reader.Reads core rest a := by
  obtain ⟨⟨lead, core, trail, hlead, htrail⟩, rfl, rfl⟩ := hcs
  constructor
  · intro hread
    obtain ⟨c, d, hread, -⟩ := Document.whole_eq_ok_iff.mp hread
    have hcursor : Cursor.ofString (String.ofList (lead ++ core ++ trail)) =
        ⟨lead ++ (core ++ trail), ⟨1, 0⟩⟩ :=
      congrArg (Cursor.mk · _) (String.toList_ofList.trans (List.append_assoc _ _ _))
    rw [Padded.chars, hcursor, h.passes hlead] at hread
    -- What is read is passed over, and that tells where it ends.
    have hskipped := h.skipped _ _ _ hread
    have hvalue := Skipped.decodes_value hcore [] trail no_blanks (stops_blanks htrail)
    rw [List.nil_append] at hvalue
    rw [hvalue] at hskipped
    obtain ⟨-, rfl⟩ := Prod.mk.inj (Except.ok.inj hskipped)
    obtain ⟨used, -, hused⟩ := h.takes _ _ _ _ rfl hread
    obtain rfl : core = used := List.append_cancel_right hused.text
    exact fun rest hrest => hused.reads rest (.inr hrest)
  · intro hreads
    have hpadded : reader.Reads (lead ++ core) trail a := fun p => by
      rw [List.append_assoc, h.passes hlead, hreads trail (stops_blanks htrail), Place.past_append]
    exact Document.whole_of_reads String.toList_ofList htrail hpadded

/-- Are these the same name and the same text, but for blanks around the text? -/
def SameText (p p' : String × List Char) : Prop :=
  p.1 = p'.1 ∧ ∃ core, IsValue core ∧ Around core p.2 ∧ Around core p'.2

/-- Are these the same members, but for blanks? -/
def MemberText.SameAs (m m' : MemberText) : Prop :=
  ∃ label value, IsQuoted label ∧ IsValue value ∧ Around label m.label ∧ Around label m'.label ∧
    Around value m.value ∧ Around value m'.value

theorem MemberText.SameAs.symm {m m' : MemberText} (h : m.SameAs m') : m'.SameAs m := by
  obtain ⟨label, value, hlabel, hvalue, hm, hm', hv, hv'⟩ := h
  exact ⟨label, value, hlabel, hvalue, hm', hm, hv', hv⟩

/-- Blanks around a name do not matter. -/
theorem MemberText.SameAs.names {m m' : MemberText} (h : m.SameAs m') {name : String}
    (hname : m'.Names name) : m.Names name := by
  obtain ⟨label, _, hlabel, _, hm, hm', _⟩ := h
  have hread := Schema.regular_any maxLevels
  exact (hread.whole_iff_of_around (.text hlabel) hm).mpr
    ((hread.whole_iff_of_around (.text hlabel) hm').mp hname)

theorem MemberText.IsMember.sameAs {m : MemberText} (h : m.IsMember) : m.SameAs m := by
  obtain ⟨label, hlabel, hm⟩ := h.label
  obtain ⟨value, hvalue, hv⟩ := h.value
  exact ⟨label.core, value.core, hlabel, hvalue, ⟨label, rfl, hm⟩, ⟨label, rfl, hm⟩,
    ⟨value, rfl, hv⟩, ⟨value, rfl, hv⟩⟩

theorem exists_sameText {ms ms' : List MemberText} {ps : List (String × List Char)}
    (h : List.Forall₂ MemberText.SameAs ms' ms) (hps : ms.map MemberText.pair? = ps.map some) :
    ∃ ps', ms'.map MemberText.pair? = ps'.map some ∧ List.Forall₂ SameText ps' ps := by
  induction h generalizing ps with
  | nil =>
    obtain rfl := List.map_eq_nil_iff.mp hps.symm
    exact ⟨[], rfl, .nil⟩
  | @cons m' m ms' ms hm _ ih =>
    cases ps with
    | nil => nomatch hps
    | cons p ps =>
      obtain ⟨hp, hps⟩ := List.cons.inj hps
      obtain ⟨hname, htext⟩ := MemberText.pair?_eq_some_iff.mp hp
      obtain ⟨ps', hps', hsame⟩ := ih hps
      refine ⟨(p.1, m'.value) :: ps', ?_, .cons ⟨rfl, ?_⟩ hsame⟩
      · rw [List.map_cons, List.map_cons, hps',
          MemberText.pair?_eq_some_iff.mpr ⟨hm.names hname, rfl⟩]
      · obtain ⟨_, value, -, hvalue, -, -, hv', hv⟩ := hm
        exact ⟨value, hvalue, hv', htext ▸ hv⟩

/-- The fields do not look at blanks around values. -/
theorem Fields.Fits.same {levels : Nat} {ps ps' : List (String × List Char)}
    (h : List.Forall₂ SameText ps' ps) : ∀ {fs : Fields} {row : fs.Row},
    fs.Fits (·.ReadsText levels) ps row → fs.Fits (·.ReadsText levels) ps' row
  | .nil, _, _ => trivial
  | .cons label schema rest, (a, row), ⟨hown, hrest⟩ => by
    have howns : List.Forall₂ SameText (label.ownTexts ps') (label.ownTexts ps) := by
      clear hown hrest
      induction h with
      | nil => exact .nil
      | @cons p' p ps' ps hp _ ih =>
        rw [Label.ownTexts, Label.ownTexts, List.filter_cons, List.filter_cons, hp.1]
        cases label.covers p.1 with
        | true => exact .cons hp ih
        | false => exact ih
    refine ⟨?_, Fields.Fits.same h hrest⟩
    revert hown howns
    generalize label.ownTexts ps' = own', label.ownTexts ps = own
    intro hown howns
    cases howns with
    | nil => exact hown
    | cons hsame hmore =>
      cases hmore with
      | nil =>
        obtain ⟨_, core, hcore, hp', hp⟩ := hsame
        have hreader := Schema.regular schema levels
        exact (hreader.whole_iff_of_around hcore hp').mpr
          ((hreader.whole_iff_of_around hcore hp).mp hown)
      | cons _ _ => exact hown.elim

namespace MembersText

variable {o o' : MembersText} {ps : List (String × List Char)}

/-- Do no two members have the same name? -/
def Distinct (o : MembersText) : Prop := ∀ ps, o.Lists ps → (ps.map (·.1)).Nodup

/-- Has one object the members of the other one, in any order and with any blanks? -/
def Reorders (o' o : MembersText) : Prop :=
  ∃ ms, List.Forall₂ MemberText.SameAs o'.members ms ∧ ms.Perm o.members

theorem Reorders.symm (h : o'.Reorders o) : o.Reorders o' := by
  obtain ⟨ms, hsame, hperm⟩ := h
  have hsame' : List.Forall₂ MemberText.SameAs ms o'.members :=
    (hsame.imp fun _ _ hm => hm.symm).flip
  exact List.perm_comp_forall₂ hperm.symm hsame'

/-- Members that just change places. -/
theorem Reorders.of_perm (ho : o'.WellFormed) (h : o'.members.Perm o.members) : o'.Reorders o :=
  ⟨o'.members, List.forall₂_same.mpr fun m hm => (ho.members m hm).sameAs, h⟩

theorem Lists.reorders (h : o.Lists ps) (hp : o'.Reorders o) :
    ∃ ps' ps₁, o'.Lists ps' ∧ List.Forall₂ SameText ps' ps₁ ∧ ps₁.Perm ps := by
  obtain ⟨ms, hsame, hperm⟩ := hp
  obtain ⟨ps₁, hps₁, hpairs⟩ := exists_perm_of_map_eq h hperm
  obtain ⟨ps', hps', hsames⟩ := exists_sameText hsame hps₁
  exact ⟨ps', ps₁, hps', hsames, hpairs⟩

theorem map_fst_of_sameText {ps ps' : List (String × List Char)}
    (h : List.Forall₂ SameText ps' ps) : ps'.map (·.1) = ps.map (·.1) := by
  induction h with
  | nil => rfl
  | cons hp _ ih => rw [List.map_cons, List.map_cons, hp.1, ih]

theorem Distinct.of_lists (h : o.Lists ps) (hnames : (ps.map (·.1)).Nodup) : o.Distinct :=
  fun _ hps => hps.inj h ▸ hnames

theorem Distinct.reorders (h : o.Distinct) (hp : o'.Reorders o) : o'.Distinct := by
  intro ps' hps'
  obtain ⟨ps, ps₁, hps, hsame, hperm⟩ := hps'.reorders hp.symm
  have hnodup := h ps hps
  rw [map_fst_of_sameText hsame] at hnodup
  exact (hperm.map _).nodup hnodup

/-- One more member comes in somewhere. -/
theorem Lists.perm_cons {m : MemberText} {name : String} (h : o.Lists ps) (hm : m.Names name)
    (hp : o'.members.Perm (m :: o.members)) :
    ∃ ps', o'.Lists ps' ∧ ps'.Perm ((name, m.value) :: ps) := by
  refine exists_perm_of_map_eq ?_ hp
  rw [List.map_cons, List.map_cons, h, MemberText.pair?_eq_some_iff.mpr ⟨hm, rfl⟩]

end MembersText

/-! ### Names -/

section Names

variable {ms ms' : List (String × α)}

/-- Where no name comes twice, every member is found. -/
theorem member?_eq_some_iff (h : (ms.map (·.1)).Nodup) {name : String} {a : α} :
    member? name ms = some a ↔ (name, a) ∈ ms := by
  refine ⟨mem_of_member?, fun hmem => ?_⟩
  induction ms with
  | nil => nomatch hmem
  | cons m ms ih =>
    obtain ⟨hnew, hms⟩ := List.nodup_cons.mp h
    rw [member?_cons]
    rcases List.mem_cons.mp hmem with rfl | hmem
    · rw [if_pos rfl]
    · have hmem' : name ∈ ms.map (·.1) := List.mem_map.mpr ⟨(name, a), hmem, rfl⟩
      have hne : m.1 ≠ name := by
        rintro rfl
        exact hnew hmem'
      rw [if_neg hne]
      exact ih hms hmem

/-- Nothing is found under a name that no member has. -/
theorem member?_eq_none_iff {name : String} :
    member? name ms = none ↔ ∀ m ∈ ms, m.1 ≠ name := by
  simp [member?]

theorem member?_perm (h : (ms.map (·.1)).Nodup) (hp : ms.Perm ms') (name : String) :
    member? name ms = member? name ms' := by
  ext a
  rw [member?_eq_some_iff h, member?_eq_some_iff ((hp.map _).nodup h), hp.mem_iff]

theorem member?_filter (keep : String → Bool) {name : String} (h : keep name = true) :
    member? name (ms.filter fun m => keep m.1) = member? name ms := by
  induction ms with
  | nil => rfl
  | cons m ms ih =>
    rw [List.filter_cons, member?_cons]
    by_cases hm : m.1 = name
    · rw [hm, h, if_pos rfl, if_pos rfl, member?_cons, if_pos hm]
    · rw [if_neg hm]
      split
      · rw [member?_cons, if_neg hm, ih]
      · exact ih

theorem member?_filter_of_not (keep : String → Bool) {name : String} (h : keep name = false) :
    member? name (ms.filter fun m => keep m.1) = none := by
  refine Option.eq_none_iff_forall_ne_some.mpr fun a ha => ?_
  have hkeep := (List.mem_filter.mp (mem_of_member? ha)).2
  exact nomatch h.symm.trans hkeep

/-- Members in order are told by what is found under their names. -/
theorem Ordered.ext (h : Ordered ms) (h' : Ordered ms')
    (heq : ∀ name, member? name ms = member? name ms') : ms = ms' := by
  have hperm : ms.Perm ms' := by
    have hne {m m' : String × α} (hlt : m.1 < m'.1) : m ≠ m' := fun heq =>
      String.lt_irrefl m'.1 (heq ▸ hlt)
    refine (List.perm_ext_iff_of_nodup (h.imp hne) (h'.imp hne)).mpr fun m => ?_
    rw [← member?_eq_some_iff h.nodup, ← member?_eq_some_iff h'.nodup, heq]
  refine hperm.eq_of_pairwise (fun m m' _ _ hlt hgt => ?_) h h'
  exact absurd (String.lt_trans hlt hgt) (String.lt_irrefl _)

/-- Sorting members whose names differ does not depend on their order. -/
theorem member?_sorted_perm (h : (ms.map (·.1)).Nodup) (hp : ms'.Perm ms) (name : String) :
    member? name (sorted ms') = member? name (sorted ms) := by
  rw [member?_sorted, member?_sorted]
  have hnodup := ((List.reverse_perm ms).map (·.1)).symm.nodup h
  have hperm := (List.reverse_perm ms).trans (hp.symm.trans (List.reverse_perm ms').symm)
  exact (member?_perm hnodup hperm name).symm

/-- What comes in under one name is not found under another one. -/
theorem member?_sorted_perm_cons {name other : String} {a : α} (h : (ms.map (·.1)).Nodup)
    (hp : ms'.Perm ((other, a) :: ms)) (hne : name ≠ other) :
    member? name (sorted ms') = member? name (sorted ms) := by
  have hkeep (l : List (String × α)) :
      member? name (l.filter fun m => decide (m.1 ≠ other)) = member? name l :=
    member?_filter (fun n => decide (n ≠ other)) (decide_eq_true hne)
  have hnodup : ((ms.filter fun m => decide (m.1 ≠ other)).map (·.1)).Nodup :=
    (List.filter_sublist.map fun m : String × α => m.1).nodup h
  have hfilter := hp.filter fun m => decide (m.1 ≠ other)
  rw [List.filter_cons, if_neg (by simp)] at hfilter
  -- Without the members of that name, the order is all that differs.
  rw [member?_sorted, member?_sorted, ← hkeep ms.reverse, ← hkeep ms'.reverse]
  have hperm (l : List (String × α)) : (l.reverse.filter fun m => decide (m.1 ≠ other)).Perm
      (l.filter fun m => decide (m.1 ≠ other)) := (List.reverse_perm l).filter _
  have hchain := (hperm ms).trans (hfilter.symm.trans (hperm ms').symm)
  exact (member?_perm (((hperm ms).map _).symm.nodup hnodup) hchain name).symm

end Names

/-! ### Fields -/

/-- The fields look at nothing but what is found under their names. -/
theorem Fields.holdsEach_congr {ms ms' : List (String × Value)} (h : Ordered ms)
    (h' : Ordered ms') : ∀ {fs : Fields} {row : fs.Row},
    (∀ name, fs.heeds name = true → member? name ms' = member? name ms) →
      (fs.HoldsEach ms' row ↔ fs.HoldsEach ms row)
  | .nil, _, _ => Iff.rfl
  | .cons label schema rest, (a, row), heq => by
    have hown : label.own ms' = label.own ms := by
      refine Ordered.ext (h'.filter _) (h.filter _) fun name => ?_
      cases hc : label.covers name with
      | false =>
        exact (member?_filter_of_not label.covers hc).trans
          (member?_filter_of_not label.covers hc).symm
      | true =>
        refine (member?_filter label.covers hc).trans
          ((heq name ?_).trans (member?_filter label.covers hc).symm)
        rw [heeds, labels, List.any_cons, hc, Bool.true_or]
    have hrest : rest.HoldsEach ms' row ↔ rest.HoldsEach ms row :=
      holdsEach_congr h h' fun name hname => heq name (by
        rw [heeds, labels, List.any_cons]
        exact Bool.or_eq_true_iff.mpr (.inr hname))
    show label.Takes _ _ (label.own ms') a ∧ _ ↔ label.Takes _ _ (label.own ms) a ∧ _
    rw [hown, hrest]

/-! ### Values -/

/-- Are these the values of the members, where at most `levels` containers may be open? -/
def Denote (levels : Nat) (ps : List (String × List Char)) (vs : List (String × Value)) : Prop :=
  ps.map (fun p => (p.1, Document.whole (Document.value levels) (String.ofList p.2))) =
    vs.map fun m => (m.1, .ok m.2)

theorem Denote.names {levels : Nat} {ps : List (String × List Char)} {vs : List (String × Value)}
    (h : Denote levels ps vs) : vs.map (·.1) = ps.map (·.1) := by
  have hnames := congrArg (List.map (·.1)) h
  rw [List.map_map, List.map_map] at hnames
  exact hnames.symm

theorem Denote.perm {levels : Nat} {ps ps' : List (String × List Char)}
    {vs : List (String × Value)} (h : Denote levels ps vs) (hp : ps'.Perm ps) :
    ∃ vs', Denote levels ps' vs' ∧ vs'.Perm vs := exists_perm_of_map_eq h hp

/-- Blanks around the values do not matter. -/
theorem Denote.same {levels : Nat} {ps ps' : List (String × List Char)}
    {vs : List (String × Value)} (hsame : List.Forall₂ SameText ps' ps) (h : Denote levels ps vs) :
    Denote levels ps' vs := by
  induction hsame generalizing vs with
  | nil => exact h
  | @cons p' p ps' ps hp _ ih =>
    cases vs with
    | nil => nomatch h
    | cons m vs =>
      obtain ⟨hm, hvs⟩ := List.cons.inj h
      obtain ⟨hname, hv⟩ := Prod.mk.inj hm
      obtain ⟨hnames, core, hcore, hp', hp⟩ := hp
      have hread := Schema.regular_any levels
      have hv' := (hread.whole_iff_of_around hcore hp').mpr
        ((hread.whole_iff_of_around hcore hp).mp hv)
      exact List.cons_eq_cons.mpr ⟨Prod.ext (hnames.trans hname) hv', ih hvs⟩

/-- What is built of a member goes to its place among those that have been built. -/
def insertsText (levels : Nat) (name : String) (ms : List (String × Value)) (w : List Char)
    (ms' : List (String × Value)) : Prop :=
  ∃ v, Document.whole (Document.value levels) (String.ofList w) = .ok v ∧ insert name v ms = ms'

theorem storesAll_inserts_iff {levels : Nat} {ps : List (String × List Char)}
    {ms ms' : List (String × Value)} : StoresAll (insertsText levels) ps ms ms' ↔
      ∃ vs, Denote levels ps vs ∧ vs.foldl (fun ms m => insert m.1 m.2 ms) ms = ms' := by
  induction ps generalizing ms with
  | nil =>
    constructor
    · rintro rfl
      exact ⟨[], rfl, rfl⟩
    · rintro ⟨vs, hvs, hms'⟩
      obtain rfl := List.map_eq_nil_iff.mp hvs.symm
      exact hms'
  | cons p ps ih =>
    constructor
    · rintro ⟨_, ⟨v, hv, rfl⟩, hps⟩
      obtain ⟨vs, hvs, hms'⟩ := ih.mp hps
      refine ⟨(p.1, v) :: vs, ?_, hms'⟩
      rw [Denote, List.map_cons, List.map_cons, hv]
      exact congrArg _ hvs
    · rintro ⟨vs, hvs, hms'⟩
      cases vs with
      | nil => nomatch hvs
      | cons m vs =>
        obtain ⟨hm, hvs⟩ := List.cons.inj hvs
        obtain ⟨hname, hv⟩ := Prod.mk.inj hm
        exact ⟨_, ⟨m.2, hv, rfl⟩, ih.mpr ⟨vs, hvs, hname ▸ hms'⟩⟩

/-- The value that an object denotes has its members sorted. -/
theorem MembersText.WellFormed.value_iff {o : MembersText} (ho : o.WellFormed) {levels : Nat}
    {v : Value} : Document.whole (Document.value (levels + 1)) o.text = .ok v ↔
      ∃ ps vs, o.Lists ps ∧ Denote levels ps vs ∧ v = .object (sorted vs) := by
  have hstep (name : String) (ms : List (String × Value)) :
      ReadsRest (Document.memberStep levels name ms) (insertsText levels name ms) :=
    .reads (Document.takes_value levels) (Skipped.passes_value levels) rfl fun w ms' => Iff.rfl
  rw [Document.value, Document.leaf, bind_assoc]
  refine (ho.whole_iff hstep [] (fun ms => .ok (.object ms)) rfl).trans ?_
  constructor
  · rintro ⟨ps, ms, hps, hstores, heq⟩
    obtain ⟨vs, hvs, rfl⟩ := storesAll_inserts_iff.mp hstores
    exact ⟨ps, vs, hps, hvs, (Except.ok.inj heq).symm⟩
  · rintro ⟨ps, vs, hps, hvs, rfl⟩
    exact ⟨ps, _, hps, storesAll_inserts_iff.mpr ⟨vs, hvs, rfl⟩, rfl⟩

end Json
end CodeQuality
