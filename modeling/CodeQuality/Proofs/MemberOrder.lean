import CodeQuality.Proofs.Direct
import CodeQuality.Proofs.Json.Reordered
import CodeQuality.Proofs.Listing

/-!
# The order of members and unknown members

A server may send the members of an object in any order, and it may send more than the program knows
of. Neither changes what is read of an entity: each field finds its members wherever they stand, and
all others are passed over. An entry of a branch listing is built as a value before it is known what
it is, so there a member that nobody knows has to be a value that can be built.

* `Schema.read_of_reorders`, `Schema.read_of_perm_cons` — what is read of a record.
* `BranchLike.ofValue_congr` — what is looked at of an entry.
* `Entity.decode_members` — all entities.
-/

namespace CodeQuality

open Json (Schema Fields Label Value MembersText MemberText Ordered Denote member? sorted)

/-! ### Records -/

section Record

variable {record : String} {fs : Fields} {o o' : MembersText} {row : fs.Row}

theorem Json.Schema.read_text_iff (ho : o.WellFormed) (hfs : fs.distinct = true) :
    (Schema.record record fs).read o.text = .ok row ↔
      ∃ ps, o.Lists ps ∧ fs.Fits (·.ReadsText (Json.maxLevels - 1)) ps row :=
  ho.read_iff hfs

/-- The order of the members does not matter to a record. -/
theorem Json.Schema.read_of_reorders {s : Schema} (hs : s = .record record fs)
    (hfs : fs.distinct = true) (ho : o.WellFormed) (ho' : o'.WellFormed) (hp : o'.Reorders o)
    {x : s.Val} (h : s.read o.text = .ok x) : s.read o'.text = .ok x := by
  subst hs
  obtain ⟨ps, hps, hfits⟩ := (read_text_iff ho hfs).mp h
  obtain ⟨ps', ps₁, hps', hsame, hperm⟩ := hps.reorders hp
  exact (read_text_iff ho' hfs).mpr ⟨ps', hps', (hfits.perm hperm.symm).same hsame⟩

/-- One more member that belongs to no field does not matter either. -/
theorem Json.Schema.read_of_perm_cons {s : Schema} (hs : s = .record record fs)
    (hfs : fs.distinct = true) (ho : o.WellFormed) (ho' : o'.WellFormed) {m : MemberText}
    (hp : o'.members.Perm (m :: o.members)) {name : String} (hname : m.Names name)
    (hunknown : fs.heeds name = false) {x : s.Val} (h : s.read o.text = .ok x) :
    s.read o'.text = .ok x := by
  subst hs
  obtain ⟨ps, hps, hfits⟩ := (read_text_iff ho hfs).mp h
  obtain ⟨ps', hps', hperm⟩ := hps.perm_cons hname hp
  exact (read_text_iff ho' hfs).mpr
    ⟨ps', hps', ((Fields.fits_cons hunknown).mpr hfits).perm hperm.symm⟩

end Record

/-! ### Entries of a listing -/

namespace BranchLike

/-- The fields of the record that an entry is. -/
def fieldsOf : BranchLike → Fields
  | .pullRequest _ => PullRequest.fields
  | .branch _ => Branch.fields

/-- Of an object nothing is looked at but its base and the members of the record that it is. -/
theorem ofValue_congr {ms ms' : List (String × Value)} (h : Ordered ms) (h' : Ordered ms')
    {a : BranchLike} (hbase : member? "base" ms' = member? "base" ms)
    (hfields : ∀ name, a.fieldsOf.heeds name = true → member? name ms' = member? name ms)
    (ha : schema.ofValue (.object ms) = .ok a.toVal) :
    schema.ofValue (.object ms') = .ok a.toVal := by
  have hget : (Value.object ms').get? "base" = (Value.object ms).get? "base" := hbase
  cases a with
  | pullRequest p =>
    obtain ⟨hsome, hp⟩ := Schema.ofValue_fork_inl_iff.mp ha
    refine Schema.ofValue_fork_inl_iff.mpr ⟨hget ▸ hsome, ?_⟩
    have heach := (Schema.ofValue_object_iff.trans (Fields.holds_iff_each (by decide))).mp hp
    exact (Schema.ofValue_object_iff.trans (Fields.holds_iff_each (by decide))).mpr
      ((Fields.holdsEach_congr h h' hfields).mpr heach)
  | branch b =>
    obtain ⟨hnone, hb⟩ := Schema.ofValue_fork_inr_iff.mp ha
    refine Schema.ofValue_fork_inr_iff.mpr ⟨hget ▸ hnone, ?_⟩
    have heach := (Schema.ofValue_object_iff.trans (Fields.holds_iff_each (by decide))).mp hb
    exact (Schema.ofValue_object_iff.trans (Fields.holds_iff_each (by decide))).mpr
      ((Fields.holdsEach_congr h h' hfields).mpr heach)

/-- An entry is read from the sorted values of its members. -/
theorem decode_text_iff {o : MembersText} (ho : o.WellFormed) {a : BranchLike} :
    Entity.branchLike.decode o.text = .ok a ↔
      ∃ ps vs, o.Lists ps ∧ Denote (Json.maxLevels - 1) ps vs ∧
        schema.ofValue (.object (sorted vs)) = .ok a.toVal := by
  refine (decode_ok_iff.trans whole_reader_iff).trans ?_
  have hvalue {v : Value} : Value.read o.text = .ok v ↔ ∃ ps vs, o.Lists ps ∧
      Denote (Json.maxLevels - 1) ps vs ∧ v = .object (sorted vs) := ho.value_iff
  constructor
  · rintro ⟨v, hv, ha⟩
    obtain ⟨ps, vs, hps, hvs, rfl⟩ := hvalue.mp hv
    exact ⟨ps, vs, hps, hvs, ha⟩
  · rintro ⟨ps, vs, hps, hvs, ha⟩
    exact ⟨_, hvalue.mpr ⟨ps, vs, hps, hvs, rfl⟩, ha⟩

variable {o o' : MembersText} {a : BranchLike}

/-- The order of the members does not matter to an entry. -/
theorem decode_of_reorders (ho : o.WellFormed) (ho' : o'.WellFormed) (hnames : o.Distinct)
    (hp : o'.Reorders o) (h : Entity.branchLike.decode o.text = .ok a) :
    Entity.branchLike.decode o'.text = .ok a := by
  obtain ⟨ps, vs, hps, hvs, ha⟩ := (decode_text_iff ho).mp h
  obtain ⟨ps', ps₁, hps', hsame, hperm⟩ := hps.reorders hp
  obtain ⟨vs', hvs', hvalues⟩ := hvs.perm hperm
  have hnodup : (vs.map (·.1)).Nodup := hvs.names ▸ hnames ps hps
  have hfound (name : String) := Json.member?_sorted_perm hnodup hvalues name
  exact (decode_text_iff ho').mpr ⟨ps', vs', hps', hvs'.same hsame,
    ofValue_congr (Json.sorted_ordered vs) (Json.sorted_ordered vs') (hfound "base")
      (fun name _ => hfound name) ha⟩

/-- One more member that nobody looks at does not matter either, if it can be built. -/
theorem decode_of_perm_cons (ho : o.WellFormed) (ho' : o'.WellFormed) (hnames : o.Distinct)
    {m : MemberText} (hp : o'.members.Perm (m :: o.members)) {name : String}
    (hname : m.Names name) (hunknown : a.fieldsOf.heeds name = false) (hbase : name ≠ "base")
    {v : Value} (hv : Json.Document.whole (Json.Document.value (Json.maxLevels - 1))
      (String.ofList m.value) = .ok v) (h : Entity.branchLike.decode o.text = .ok a) :
    Entity.branchLike.decode o'.text = .ok a := by
  obtain ⟨ps, vs, hps, hvs, ha⟩ := (decode_text_iff ho).mp h
  obtain ⟨ps', hps', hperm⟩ := hps.perm_cons hname hp
  have hvs₁ : Denote (Json.maxLevels - 1) ((name, m.value) :: ps) ((name, v) :: vs) := by
    rw [Denote, List.map_cons, List.map_cons, hv]
    exact congrArg _ hvs
  obtain ⟨vs', hvs', hvalues⟩ := hvs₁.perm hperm
  have hnodup : (vs.map (·.1)).Nodup := hvs.names ▸ hnames ps hps
  have hfound {other : String} (hne : other ≠ name) :=
    Json.member?_sorted_perm_cons hnodup hvalues hne
  refine (decode_text_iff ho').mpr ⟨ps', vs', hps', hvs',
    ofValue_congr (Json.sorted_ordered vs) (Json.sorted_ordered vs') (hfound hbase.symm)
      (fun other hother => hfound ?_) ha⟩
  rintro rfl
  exact Bool.noConfusion (hother.symm.trans hunknown)

end BranchLike

/-! ### Entities -/

namespace Entity

/-- The fields of the record that an entity is. -/
def fieldsOf : (e : Entity) → e.Carrier → Fields
  | branchLike, a => a.fieldsOf
  | branch, _ => Branch.fields
  | branchType, _ => .nil
  | branchStatus, _ => BranchStatus.fields
  | pullRequest, _ => PullRequest.fields
  | pullRequestStatus, _ => PullRequestStatus.fields
  | measure, _ => Measure.fields
  | measurePeriod, _ => MeasurePeriod.fields
  | metric, _ => Metric.fields
  | period, _ => Period.fields
  | measureComponent, _ => MeasureComponent.fields
  | measuresAndMeta, _ => MeasuresAndMeta.fields
  | projectMeasure, _ => ProjectMeasure.fields

/-- Is this a member that no field of the entity is called like? An entry of a listing is told by
its base, and each of its members has to be a value that can be built inside it. -/
def Ignores (e : Entity) (a : e.Carrier) (m : MemberText) : Prop :=
  ∃ name, m.Names name ∧ (e.fieldsOf a).heeds name = false ∧
    (e = branchLike → name ≠ "base" ∧ ∃ v, Json.Document.whole
      (Json.Document.value (Json.maxLevels - 1)) (String.ofList m.value) = .ok v)

/-- All other entities than those of branch listings are records, but for a name. -/
theorem schema_eq_record {e : Entity} (hlike : e ≠ branchLike) (htype : e ≠ branchType) :
    ∃ record fs, e.schema = .record record fs ∧ fs.distinct = true ∧ ∀ a, e.fieldsOf a = fs := by
  cases e with
  | branchLike => exact absurd rfl hlike
  | branchType => exact absurd rfl htype
  | _ => exact ⟨_, _, rfl, by decide, fun _ => rfl⟩

theorem decode_of_read {e : Entity} {text text' : String} {a : e.Carrier}
    (h : ∀ x, e.schema.read text = .ok x → e.schema.read text' = .ok x)
    (ha : e.decode text = .ok a) : e.decode text' = .ok a := by
  obtain ⟨x, hx, rfl⟩ := map_ok_iff.mp ha
  exact map_ok_iff.mpr ⟨x, h x hx, rfl⟩

variable {e : Entity} {o o' : MembersText} {a : e.Carrier}

theorem decode_of_reorders (he : e ≠ branchType) (ho : o.WellFormed) (ho' : o'.WellFormed)
    (hnames : o.Distinct) (hp : o'.Reorders o) (h : e.decode o.text = .ok a) :
    e.decode o'.text = .ok a := by
  by_cases hlike : e = branchLike
  · subst hlike
    exact BranchLike.decode_of_reorders ho ho' hnames hp h
  · obtain ⟨record, fs, hs, hfs, -⟩ := schema_eq_record hlike he
    exact decode_of_read (fun x => Schema.read_of_reorders hs hfs ho ho' hp) h

theorem decode_of_perm_cons (he : e ≠ branchType) (ho : o.WellFormed) (ho' : o'.WellFormed)
    (hnames : o.Distinct) {m : MemberText} (hp : o'.members.Perm (m :: o.members))
    (hm : e.Ignores a m) (h : e.decode o.text = .ok a) : e.decode o'.text = .ok a := by
  obtain ⟨name, hname, hunknown, hlisted⟩ := hm
  by_cases hlike : e = branchLike
  · subst hlike
    obtain ⟨hbase, v, hv⟩ := hlisted rfl
    exact BranchLike.decode_of_perm_cons ho ho' hnames hp hname hunknown hbase hv h
  · obtain ⟨record, fs, hs, hfs, hfields⟩ := schema_eq_record hlike he
    have hunknown : fs.heeds name = false := hfields a ▸ hunknown
    exact decode_of_read (fun x => Schema.read_of_perm_cons hs hfs ho ho' hp hname hunknown) h

/-- What is read of the members of an entity depends neither on their order nor on members that no
field is called like, wherever they stand. -/
theorem decode_members (he : e ≠ branchType) (ho : o.WellFormed) (ho' : o'.WellFormed)
    (hnames : o.Distinct) (a : e.Carrier) :
    (o'.Reorders o → (e.decode o'.text = .ok a ↔ e.decode o.text = .ok a)) ∧
    (∀ front m back, o.members = front ++ back → o'.members = front ++ m :: back →
      e.Ignores a m → e.decode o.text = .ok a → e.decode o'.text = .ok a) := by
  constructor
  · intro hp
    exact ⟨decode_of_reorders he ho' ho (hnames.reorders hp) hp.symm,
      decode_of_reorders he ho ho' hnames hp⟩
  · intro front m back hmembers hmembers' hm h
    refine decode_of_perm_cons he ho ho' hnames ?_ hm h
    rw [hmembers, hmembers']
    exact List.perm_middle

/-- An entry whose members are sent the other way round, and with a member between them that nobody
knows. -/
theorem decode_members_entry :
    let text := "\x7b\"isMain\":true,\"name\":\"main\"\x7d"
    let turned := "\x7b\"name\":\"main\",\"isMain\":true\x7d\n"
    let widened := "\x7b\"isMain\":true,\"excluded\":[\x7b\x7d],\"name\":\"main\"\x7d"
    let listed := BranchLike.branch { name := "main", isMain := true }
    branchLike.decode text = .ok listed ∧ branchLike.decode turned = .ok listed ∧
      branchLike.decode widened = .ok listed := by
  intro text turned widened listed
  let main : MemberText := ⟨"\"isMain\"".toList, "true".toList⟩
  let name : MemberText := ⟨"\"name\"".toList, "\"main\"".toList⟩
  let unknown : MemberText := ⟨"\"excluded\"".toList, "[\x7b\x7d]".toList⟩
  let o : MembersText := ⟨[], [main, name], [], []⟩
  let o' : MembersText := ⟨[], [name, main], [], ['\n']⟩
  let o'' : MembersText := ⟨[], [main, unknown, name], [], []⟩
  have ho : o.WellFormed := .of_legible (by decide +kernel)
  have ho' : o'.WellFormed := .of_legible (by decide +kernel)
  have ho'' : o''.WellFormed := .of_legible (by decide +kernel)
  have hlists : o.Lists [("isMain", "true".toList), ("name", "\"main\"".toList)] := by
    decide +kernel
  have hnames : o.Distinct := .of_lists hlists (by decide)
  have htext : o.text = text := by decide +kernel
  have hturned : o'.text = turned := by decide +kernel
  have hwidened : o''.text = widened := by decide +kernel
  have hread : branchLike.decode o.text = .ok listed :=
    toOption_eq_some_iff.mp (by decide +kernel)
  have hperm : o'.Reorders o := .of_perm ho' (.swap main name [])
  have hbuilt : (Json.Document.whole (Json.Document.value (Json.maxLevels - 1))
      (String.ofList unknown.value)).toOption.isSome := by decide +kernel
  obtain ⟨v, hv⟩ := Option.isSome_iff_exists.mp hbuilt
  have hignored : branchLike.Ignores listed unknown :=
    ⟨"excluded", Json.MemberText.name?_eq_some_iff.mp (by decide +kernel), by decide,
      fun _ => ⟨by decide, v, toOption_eq_some_iff.mp hv⟩⟩
  have hturn := (decode_members (e := branchLike) nofun ho ho' hnames listed).1 hperm
  have hwiden := (decode_members (e := branchLike) nofun ho ho'' hnames listed).2 [main] unknown
    [name] rfl rfl hignored hread
  exact ⟨htext ▸ hread, hturned ▸ hturn.mpr hread, hwidened ▸ hwiden⟩

end Entity
end CodeQuality
