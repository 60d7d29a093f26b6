import CodeQuality.Json.Schema.Writer
import CodeQuality.Proofs.Json.Document
import CodeQuality.Proofs.Json.Members

/-!
# Faithful schemas

A schema is faithful if nothing that it writes is ambiguous: what is left out can be filled in
again, no two fields share a name, no null stands for two things, and of a fork one record always
has the member that tells and the other never has it. This is a property of the schema alone, and
is found by evaluating it.

* `Schema.faithful`, `Schema.nesting`, `Schema.dates` — what is asked of a schema and its values.
* `eq_zero_of_toValue_null` — what is written as null is zero.
* `Schema.fits_toValue`, `Schema.distinct_toValue` — what is written fits into a document, and
  repeats no name.
-/

namespace CodeQuality
namespace Json

/-! ### Names -/

namespace Fields

/-- The names that fields are written under. -/
def names : Fields → List String
  | .nil => []
  | .cons label _ rest => label.name :: rest.names

/-- The names of fields that are always written. -/
def steadyNames : Fields → List String
  | .nil => []
  | .cons label _ rest =>
    if label.omitted then rest.steadyNames else label.name :: rest.steadyNames

end Fields

namespace Schema

def isRecord : Schema → Bool
  | .record _ _ => true
  | _ => false

/-- The names that a record may be written with. -/
def names : Schema → List String
  | .record _ fields => fields.names
  | _ => []

/-- The names that a record is always written with. -/
def steadyNames : Schema → List String
  | .record _ fields => fields.steadyNames
  | _ => []

/-- May null be written? -/
def writesNull : Schema → Bool
  | .any => true
  | .date => true
  | .optional _ => true
  | .fork _ _ present _ absent => present.writesNull || absent.writesNull
  | _ => false

end Schema

/-! ### Faithful schemas -/

mutual

/-- Is everything that is written told apart when it is read? -/
def Schema.faithful : Schema → Bool
  | .any => false
  | .text => true
  | .flag => true
  | .count => true
  | .signed => true
  | .date => true
  | .tag known other => decide known.Nodup && !known.contains other
  | .optional inner => !inner.writesNull && inner.faithful
  | .list item => item.faithful
  | .record _ fields => fields.faithful
  | .fork member _ present _ absent =>
    present.steadyNames.contains member && absent.isRecord && !absent.names.contains member &&
      present.faithful && absent.faithful

def Fields.faithful : Fields → Bool
  | .nil => true
  | .cons label schema rest =>
    !(label.omitted && label.required) && rest.names.all (fun name => !label.covers name) &&
      schema.faithful && rest.faithful

end

mutual

/-- How many containers what is written has inside one another. -/
def Schema.nesting : Schema → Nat
  | .optional inner => inner.nesting
  | .list item => item.nesting + 1
  | .record _ fields => fields.nesting + 1
  | .fork _ _ present _ absent => max present.nesting absent.nesting
  | _ => 0

def Fields.nesting : Fields → Nat
  | .nil => 0
  | .cons _ schema rest => max schema.nesting rest.nesting

end

mutual

/-- The dates of a value. -/
def Schema.dates : (s : Schema) → s.Val → List Instant
  | .any, _ => []
  | .text, _ => []
  | .flag, _ => []
  | .count, _ => []
  | .signed, _ => []
  | .date, none => []
  | .date, some t => [t]
  | .tag _ _, _ => []
  | .optional _, none => []
  | .optional inner, some a => inner.dates a
  | .list item, as => List.flatMap item.dates as
  | .record _ fields, row => fields.dates row
  | .fork _ _ present _ _, .inl a => present.dates a
  | .fork _ _ _ _ absent, .inr a => absent.dates a

def Fields.dates : (fs : Fields) → fs.Row → List Instant
  | .nil, _ => []
  | .cons _ schema rest, (a, row) => schema.dates a ++ rest.dates row

end

/-! ### What is written -/

section Written

variable {label : Label} {schema : Schema} {rest : Fields} {a : schema.Val} {row : rest.Row}

/-- A field is left out, or its member stands in front of the others. -/
theorem Fields.toMembers_cons (label : Label) (a : schema.Val) (row : rest.Row) :
    (label.omitted = true ∧ schema.toValue a = .null ∧
      (Fields.cons label schema rest).toMembers (a, row) = rest.toMembers row) ∨
    (¬ (label.omitted = true ∧ schema.toValue a = .null) ∧
      (Fields.cons label schema rest).toMembers (a, row) =
        (label.name, schema.toValue a) :: rest.toMembers row) := by
  rw [Fields.toMembers]
  split
  · next ho hv => exact .inl ⟨ho, hv, rfl⟩
  · next h => exact .inr ⟨fun ⟨ho, hv⟩ => h ho hv, rfl⟩

theorem Fields.faithful_cons_iff : (Fields.cons label schema rest).faithful = true ↔
    ¬ (label.omitted = true ∧ label.required = true) ∧
      (∀ name ∈ rest.names, label.covers name = false) ∧ schema.faithful = true ∧
      rest.faithful = true := by
  simp only [Fields.faithful, Bool.and_eq_true, Bool.not_eq_true', List.all_eq_true, and_assoc,
    ← Bool.not_eq_true]

theorem Schema.faithful_fork_iff {member presentNoun absentNoun : String}
    {present absent : Schema} :
    (Schema.fork member presentNoun present absentNoun absent).faithful = true ↔
      member ∈ present.steadyNames ∧ absent.isRecord = true ∧ member ∉ absent.names ∧
        present.faithful = true ∧ absent.faithful = true := by
  simp only [Schema.faithful, Bool.and_eq_true, Bool.not_eq_true', List.contains_iff_mem,
    ← Bool.not_eq_true, and_assoc]

theorem Schema.faithful_tag_iff {known : List String} {other : String} :
    (Schema.tag known other).faithful = true ↔ known.Nodup ∧ other ∉ known := by
  simp only [Schema.faithful, Bool.and_eq_true, decide_eq_true_eq, Bool.not_eq_true',
    ← Bool.not_eq_true, List.contains_iff_mem]

theorem Schema.faithful_optional_iff {inner : Schema} : (Schema.optional inner).faithful = true ↔
    inner.writesNull = false ∧ inner.faithful = true := by
  simp only [Schema.faithful, Bool.and_eq_true, Bool.not_eq_true']

end Written

theorem Fields.fst_mem_names : ∀ {fs : Fields} {row : fs.Row} {m : String × Value},
    m ∈ fs.toMembers row → m.1 ∈ fs.names
  | .nil, _, _, h => nomatch h
  | .cons label _ _, (a, row), _, h => by
    rcases toMembers_cons label a row with ⟨-, -, heq⟩ | ⟨-, heq⟩
    · rw [heq] at h
      exact List.mem_cons_of_mem _ (fst_mem_names h)
    · rw [heq] at h
      rcases List.mem_cons.mp h with rfl | h
      · exact List.mem_cons_self
      · exact List.mem_cons_of_mem _ (fst_mem_names h)

/-- No name is written twice. -/
theorem Fields.nodup_toMembers : ∀ {fs : Fields}, fs.faithful = true → ∀ row : fs.Row,
    ((fs.toMembers row).map (·.1)).Nodup
  | .nil, _, _ => List.nodup_nil
  | .cons label _ rest, h, (a, row) => by
    obtain ⟨-, hnames, -, hrest⟩ := faithful_cons_iff.mp h
    have ih := nodup_toMembers hrest row
    rcases toMembers_cons label a row with ⟨-, -, heq⟩ | ⟨-, heq⟩
    · rwa [heq]
    · rw [heq, List.map_cons]
      refine List.nodup_cons.mpr ⟨fun hmem => ?_, ih⟩
      obtain ⟨m, hm, hname⟩ := List.mem_map.mp hmem
      have hcovers := hnames m.1 (fst_mem_names hm)
      rw [hname, Label.covers, decide_eq_true rfl, Bool.true_or] at hcovers
      nomatch hcovers

/-- A field that is never left out has its member. -/
theorem Fields.exists_mem_toMembers : ∀ {fs : Fields} {name : String}, name ∈ fs.steadyNames →
    ∀ row : fs.Row, ∃ v, (name, v) ∈ fs.toMembers row
  | .nil, _, h, _ => nomatch h
  | .cons label schema rest, name, h, (a, row) => by
    have hrest (h : name ∈ rest.steadyNames) :
        ∃ v, (name, v) ∈ (Fields.cons label schema rest).toMembers (a, row) := by
      obtain ⟨v, hv⟩ := exists_mem_toMembers h row
      rcases toMembers_cons label a row with ⟨-, -, heq⟩ | ⟨-, heq⟩
      · exact ⟨v, heq ▸ hv⟩
      · exact ⟨v, heq ▸ List.mem_cons_of_mem _ hv⟩
    rw [steadyNames] at h
    split at h
    · exact hrest h
    · next homitted =>
      rcases List.mem_cons.mp h with rfl | h
      · rcases toMembers_cons label a row with ⟨ho, -⟩ | ⟨-, heq⟩
        · exact absurd ho homitted
        · exact ⟨_, heq ▸ List.mem_cons_self⟩
      · exact hrest h

/-- Only some schemas write null. -/
theorem Schema.toValue_ne_null : ∀ {s : Schema}, s.writesNull = false → ∀ a : s.Val,
    s.toValue a ≠ .null
  | .text, _, _, h => nomatch h
  | .flag, _, _, h => nomatch h
  | .count, _, _, h => nomatch h
  | .signed, _, _, h => nomatch h
  | .tag _ _, _, some _, h => nomatch h
  | .tag _ _, _, none, h => nomatch h
  | .list _, _, _, h => nomatch h
  | .record _ _, _, _, h => nomatch h
  | .fork _ _ _ _ _, hs, .inl a, h =>
    toValue_ne_null (Bool.or_eq_false_iff.mp hs).1 a h
  | .fork _ _ _ _ _, hs, .inr a, h =>
    toValue_ne_null (Bool.or_eq_false_iff.mp hs).2 a h

theorem Schema.writesNull_of_isRecord : ∀ {s : Schema}, s.isRecord = true → s.writesNull = false
  | .record _ _, _ => rfl

theorem Schema.isRecord_of_mem_steadyNames : ∀ {s : Schema} {name : String},
    name ∈ s.steadyNames → s.isRecord = true
  | .record _ _, _, _ => rfl

/-- What is written as null is the value of an absent field. -/
theorem Schema.eq_zero_of_toValue_null : ∀ {s : Schema}, s.faithful = true → ∀ {a : s.Val},
    s.toValue a = .null → a = s.zero
  | .date, _, none, _ => rfl
  | .optional _, _, none, _ => rfl
  | .optional _, hs, some a, h =>
    absurd h (toValue_ne_null (faithful_optional_iff.mp hs).1 a)
  | .fork member _ present _ absent, hs, a, h => by
    obtain ⟨hmember, hrecord, -⟩ := faithful_fork_iff.mp hs
    have hpresent := writesNull_of_isRecord (isRecord_of_mem_steadyNames hmember)
    have habsent := writesNull_of_isRecord hrecord
    refine absurd h (toValue_ne_null ?_ a)
    rw [writesNull, hpresent, habsent]
    rfl

/-! ### The field in front -/

section Front

variable {label : Label} {schema : Schema} {rest : Fields}

/-- A field that is left out may be missing, and has the value of a missing member. -/
theorem Fields.toMembers_cons_faithful (h : (Fields.cons label schema rest).faithful = true)
    (a : schema.Val) (row : rest.Row) :
    ((label.required = false ∧ a = schema.zero) ∧
      (Fields.cons label schema rest).toMembers (a, row) = rest.toMembers row) ∨
    (Fields.cons label schema rest).toMembers (a, row) =
      (label.name, schema.toValue a) :: rest.toMembers row := by
  obtain ⟨hlabel, -, hschema, -⟩ := faithful_cons_iff.mp h
  rcases toMembers_cons label a row with ⟨homitted, hnull, heq⟩ | ⟨-, heq⟩
  · have hrequired : label.required = false := by
      rw [← Bool.not_eq_true]
      exact fun hrequired => hlabel ⟨homitted, hrequired⟩
    exact .inl ⟨⟨hrequired, Schema.eq_zero_of_toValue_null hschema hnull⟩, heq⟩
  · exact .inr heq

/-- The members of the fields behind it are no members of the field in front, whatever becomes of
their values. -/
theorem Fields.not_covers_of_mem_map (h : (Fields.cons label schema rest).faithful = true)
    {α : Type} (row : rest.Row) (f : Value → α) :
    ∀ m ∈ (rest.toMembers row).map fun m => (m.1, f m.2), label.covers m.1 = false := by
  obtain ⟨-, hnames, -, -⟩ := faithful_cons_iff.mp h
  intro m hm
  obtain ⟨m', hm', rfl⟩ := List.mem_map.mp hm
  exact hnames m'.1 (fst_mem_names hm')

end Front

/-! ### What is written fits, and repeats no name -/

mutual

/-- What is written has integers only, and no more containers inside one another than its schema. -/
theorem Schema.fits_toValue : ∀ {s : Schema} {levels : Nat}, s.faithful = true →
    s.nesting ≤ levels → ∀ a : s.Val, (s.toValue a).Fits levels
  | .text, _, _, _, _ => trivial
  | .flag, _, _, _, _ => trivial
  | .count, _, _, _, n => by
    have := UInt32.toNat_lt n
    refine ⟨?_, ?_⟩ <;> omega
  | .signed, _, _, _, n => by
    have h₀ := Int32.le_toInt n
    have h₁ := Int32.toInt_lt n
    refine ⟨?_, ?_⟩ <;> omega
  | .date, _, _, _, none => trivial
  | .date, _, _, _, some _ => trivial
  | .tag _ _, _, _, _, some _ => trivial
  | .tag _ _, _, _, _, none => trivial
  | .optional _, _, _, _, none => trivial
  | .optional _, _, hs, hn, some a =>
    Schema.fits_toValue (Schema.faithful_optional_iff.mp hs).2 hn a
  | .list item, levels + 1, hs, hn, as => by
    refine Value.itemsFit_of_forall fun v hv => ?_
    obtain ⟨a, -, rfl⟩ := List.mem_map.mp hv
    exact Schema.fits_toValue (s := item) hs (Nat.le_of_succ_le_succ hn) a
  | .record _ fields, levels + 1, hs, hn, row =>
    Fields.fits_toMembers (show fields.faithful = true from hs) (Nat.le_of_succ_le_succ hn) row
  | .fork _ _ _ _ _, _, hs, hn, .inl a =>
    Schema.fits_toValue (Schema.faithful_fork_iff.mp hs).2.2.2.1
      (Nat.le_trans (Nat.le_max_left _ _) hn) a
  | .fork _ _ _ _ _, _, hs, hn, .inr a =>
    Schema.fits_toValue (Schema.faithful_fork_iff.mp hs).2.2.2.2
      (Nat.le_trans (Nat.le_max_right _ _) hn) a

theorem Fields.fits_toMembers : ∀ {fs : Fields} {levels : Nat}, fs.faithful = true →
    fs.nesting ≤ levels → ∀ row : fs.Row, Value.MembersFit levels (fs.toMembers row)
  | .nil, _, _, _, _ => trivial
  | .cons label schema rest, _, hs, hn, (a, row) => by
    obtain ⟨-, -, hschema, hrest⟩ := Fields.faithful_cons_iff.mp hs
    have ha := Schema.fits_toValue hschema (Nat.le_trans (Nat.le_max_left _ _) hn) a
    have hrow := Fields.fits_toMembers hrest (Nat.le_trans (Nat.le_max_right _ _) hn) row
    rcases Fields.toMembers_cons label a row with ⟨-, -, heq⟩ | ⟨-, heq⟩
    · rwa [heq]
    · rw [heq]
      exact ⟨ha, hrow⟩

end

mutual

/-- No object that a faithful schema writes repeats a name. -/
theorem Schema.distinct_toValue : ∀ {s : Schema}, s.faithful = true → ∀ a : s.Val,
    (s.toValue a).Distinct
  | .text, _, s => .text s
  | .flag, _, b => .flag b
  | .count, _, n => .number (.integer n.toNat)
  | .signed, _, n => .number (.integer n.toInt)
  | .date, _, none => .null
  | .date, _, some t => .text (Timestamp.text t)
  | .tag known _, _, some i => .text (known.get i)
  | .tag _ other, _, none => .text other
  | .optional _, _, none => .null
  | .optional _, hs, some a => Schema.distinct_toValue (Schema.faithful_optional_iff.mp hs).2 a
  | .list item, hs, as => by
    refine .list fun v hv => ?_
    obtain ⟨a, -, rfl⟩ := List.mem_map.mp hv
    exact Schema.distinct_toValue (s := item) hs a
  | .record _ fields, hs, row =>
    .object (Fields.nodup_toMembers hs row)
      (Fields.distinct_toMembers (show fields.faithful = true from hs) row)
  | .fork _ _ _ _ _, hs, .inl a =>
    Schema.distinct_toValue (Schema.faithful_fork_iff.mp hs).2.2.2.1 a
  | .fork _ _ _ _ _, hs, .inr a =>
    Schema.distinct_toValue (Schema.faithful_fork_iff.mp hs).2.2.2.2 a

theorem Fields.distinct_toMembers : ∀ {fs : Fields}, fs.faithful = true → ∀ row : fs.Row,
    ∀ m ∈ fs.toMembers row, m.2.Distinct
  | .nil, _, _ => List.forall_mem_nil _
  | .cons label schema rest, hs, (a, row) => by
    obtain ⟨-, -, hschema, hrest⟩ := Fields.faithful_cons_iff.mp hs
    have hrow := Fields.distinct_toMembers hrest row
    rcases Fields.toMembers_cons label a row with ⟨-, -, heq⟩ | ⟨-, heq⟩
    · rwa [heq]
    · rw [heq]
      exact List.forall_mem_cons.mpr ⟨Schema.distinct_toValue hschema a, hrow⟩

end

end Json
end CodeQuality
