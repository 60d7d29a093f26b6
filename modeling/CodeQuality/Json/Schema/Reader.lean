import CodeQuality.Json.Document
import CodeQuality.Json.Schema
import CodeQuality.Json.Skipped
import CodeQuality.Time.Timestamp

/-!
# Reading by a schema

There are two ways. `Schema.ofValue` reads from a value that is there as a whole; its faults have no
place. `Schema.reader` reads from the document itself, so that a fault has its place and members
that no field covers are passed over without being built. A fork is the point where the second way
turns into the first.

A record is also read from a list that holds the fields in their order; fields at the end that need
not be there may be left out.
-/

namespace CodeQuality
namespace Json

/-- The text of a date, or nothing. -/
def dateOf (s : String) : Except Cause (Option Instant) :=
  match Timestamp.read? s with
  | some t => .ok (some t)
  | none => .error (.badDate s)

/-- A count as it is read from a number. -/
def countOf (n : Number) : Except Cause UInt32 :=
  match n with
  | .integer i =>
    if 0 ≤ i && i < 0x100000000 then .ok (UInt32.ofNat i.toNat)
    else .error (.wrongValue (.number n) .count)
  | .float _ => .error (.wrongKind (.number n) .count)

/-- A signed number as it is read from a number. -/
def signedOf (n : Number) : Except Cause Int32 :=
  match n with
  | .integer i =>
    if -0x80000000 ≤ i && i < 0x80000000 then .ok (Int32.ofInt i)
    else .error (.wrongValue (.number n) .signed)
  | .float _ => .error (.wrongKind (.number n) .signed)

/-- The place of a name among those that are known. -/
def tagOf (known : List String) (name : String) : Option (Fin known.length) :=
  known.finIdxOf? name

/-- The tag that a value names: by its text, or as the only member of an object. -/
def tagOfValue (known : List String) : Value → Except Cause (Option (Fin known.length))
  | .text name => .ok (tagOf known name)
  | .object [(name, .null)] => .ok (tagOf known name)
  | .object [(_, v)] => .error (.wrongKind v.found .nothing)
  | .object _ => .error (.wrongValue .object .soleMember)
  | v => .error (.wrongKind v.found .tag)

/-- The fault of a record in which the field `label` is absent. -/
def missing (label : Label) : Cause := .missingMember label.name

/-! ### From a value -/

mutual

/-- Reads a value by a schema. -/
def Schema.ofValue : (s : Schema) → Value → Except Cause s.Val
  | .any, v => .ok v
  | .text, v =>
    match v with
    | .text s => .ok s
    | v => .error (.wrongKind v.found .text)
  | .flag, v =>
    match v with
    | .flag b => .ok b
    | v => .error (.wrongKind v.found .flag)
  | .count, v =>
    match v with
    | .number n => countOf n
    | v => .error (.wrongKind v.found .count)
  | .signed, v =>
    match v with
    | .number n => signedOf n
    | v => .error (.wrongKind v.found .signed)
  | .date, v =>
    match v with
    | .null => .ok none
    | .text s => dateOf s
    | v => .error (.wrongKind v.found .text)
  | .tag known _, v => tagOfValue known v
  | .optional inner, v =>
    match v with
    | .null => .ok none
    | v => (inner.ofValue v).map some
  | .list item, v =>
    match v with
    | .list vs => vs.mapM item.ofValue
    | v => .error (.wrongKind v.found .list)
  | .record name fields, v =>
    match v with
    | .object members => do
      let slots ← members.foldlM (fun slots m => fields.memberOfValue m.1 m.2 slots)
        fields.emptySlots
      (fields.row slots).mapError missing
    | .list vs => do
      let (row, left) ← fields.rowOfValues name fields.size 0 vs
      if left.isEmpty then .ok row
      else .error (.wrongLength vs.length .fewerElements)
    | v => .error (.wrongKind v.found (.record name))
  | .fork member presentNoun present absentNoun absent, v =>
    if (v.get? member).isSome then
      ((present.ofValue v).map .inl).mapError (.badRecord presentNoun)
    else ((absent.ofValue v).map .inr).mapError (.badRecord absentNoun)

/-- Reads the value of a member into the slot of its field, if a field covers it. -/
def Fields.memberOfValue : (fs : Fields) → (name : String) → Value → fs.Slots →
    Except Cause fs.Slots
  | .nil, _, _, slots => .ok slots
  | .cons label schema rest, name, v, (slot, slots) =>
    if label.covers name then
      match slot with
      | some _ => .error (.repeatedMember label.name)
      | none => do return (some (← schema.ofValue v), slots)
    else do return (slot, ← rest.memberOfValue name v slots)

/-- Reads the first of some values into the fields, the first of which is the one with number
`index` of the `total` fields of the record `name`. The values that are left over are handed back. -/
def Fields.rowOfValues : (fs : Fields) → (name : String) → (total index : Nat) → List Value →
    Except Cause (fs.Row × List Value)
  | .nil, _, _, _, vs => .ok ((), vs)
  | .cons label schema rest, name, total, index, vs =>
    match vs with
    | v :: vs => do
      let a ← schema.ofValue v
      let (row, left) ← rest.rowOfValues name total (index + 1) vs
      return ((a, row), left)
    | [] =>
      if label.required then .error (.wrongLength index (.elements name total))
      else do
        let (row, left) ← rest.rowOfValues name total (index + 1) []
        return ((schema.zero, row), left)

end

/-! ### From a document -/

open Reader Container

/-- Fails with a cause at the cursor. -/
def Reader.ofExcept {α : Type} : Except Cause α → Reader α
  | .ok a => return a
  | .error cause => failHere cause

/-- Fails with a cause that has no place yet. -/
def Reader.standing {α : Type} : Except Cause α → Reader α
  | .ok a => return a
  | .error cause => fail cause

/-- Fails because the next value is not of the kind that is expected. A value that holds no others
is read first, and then the fault is behind it. -/
def Reader.unexpected {α : Type} (expected : Expected) : Reader α := do
  match ← Document.leaf with
  | .value v => failHere (.wrongKind v.found expected)
  | .list => failHere (.wrongKind .list expected)
  | .object => failHere (.wrongKind .object expected)

/-- A text. -/
def Reader.text (expected : Expected) : Reader String := do
  match ← peekBehindSpace with
  | some '"' => do
    skip
    Quoted.body
  | _ => unexpected expected

/-- A truth value. -/
def Reader.flag : Reader Bool := do
  match ← Document.leaf with
  | .value (.flag b) => return b
  | .value v => failHere (.wrongKind v.found .flag)
  | .list => failHere (.wrongKind .list .flag)
  | .object => failHere (.wrongKind .object .flag)

/-- A number, of which `convert` makes what is expected. -/
def Reader.number {α : Type} (expected : Expected) (convert : Number → Except Cause α) :
    Reader α := do
  match ← Document.leaf with
  | .value (.number n) => ofExcept (convert n)
  | .value v => failHere (.wrongKind v.found expected)
  | .list => failHere (.wrongKind .list expected)
  | .object => failHere (.wrongKind .object expected)

/-- Nothing, or what `inner` reads. -/
def Reader.optional {α : Type} (inner : Reader α) : Reader (Option α) := do
  match ← peekBehindSpace with
  | some 'n' => do
    skip
    letters ['u', 'l', 'l']
    return none
  | _ => return some (← inner)

/-- A null. -/
def Reader.nothing : Reader Unit := do
  match ← peekBehindSpace with
  | none => failHere .endInValue
  | some 'n' => do
    skip
    letters ['u', 'l', 'l']
  | some _ => unexpected .nothing

/-- A tag: its name, or an object whose only member has that name and the value null. -/
def Reader.tag (known : List String) (levels : Nat) : Reader (Option (Fin known.length)) := do
  match ← peekBehindSpace with
  | none => failHere .endInValue
  | some '"' => do
    skip
    return tagOf known (← Quoted.body)
  | some '{' =>
    opening levels fun _ => do
      let name ← text .tagName
      colon
      nothing
      match ← peekBehindSpace with
      | some '}' => do
        skip
        return tagOf known name
      | some _ => failHere .valueExpected
      | none => failHere .endInObject
  | some _ => failAhead .valueExpected

mutual

/-- Reads by a schema, where at most `levels` containers may be open inside one another. -/
def Schema.reader : (s : Schema) → (levels : Nat) → Reader s.Val
  | .any, levels => Document.value levels
  | .text, _ => text .text
  | .flag, _ => flag
  | .count, _ => number .count countOf
  | .signed, _ => number .signed signedOf
  | .date, _ => do
    match ← optional (text .text) with
    | none => return none
    | some s => standing (dateOf s)
  | .tag known _, levels => tag known levels
  | .optional inner, levels => optional (inner.reader levels)
  | .list item, levels => do
    match ← peekBehindSpace with
    | none => failHere .endInValue
    | some '[' => list levels item.reader
    | some _ => unexpected .list
  | .record name fields, levels => do
    match ← peekBehindSpace with
    | none => failHere .endInValue
    | some '{' =>
      opening levels fun levels =>
        settled objectEnd do
          let step := fun member slots => fields.memberReader levels member slots
          let slots ← objectBody step fields.emptySlots
          let row ← standing ((fields.row slots).mapError missing)
          closeObject
          return row
    | some '[' =>
      opening levels fun levels =>
        settled listEnd do
          let row ← fields.rowReader levels name fields.size 0 true
          closeList
          return row
    | some _ => unexpected (.record name)
  | .fork member presentNoun present absentNoun absent, levels => do
    let v ← Document.value levels
    standing <|
      if (v.get? member).isSome then
        ((present.ofValue v).map .inl).mapError (.badRecord presentNoun)
      else ((absent.ofValue v).map .inr).mapError (.badRecord absentNoun)

/-- Reads a member from its colon on into the slot of its field; a member that no field covers is
passed over. -/
def Fields.memberReader : (fs : Fields) → (levels : Nat) → (name : String) → fs.Slots →
    Reader fs.Slots
  | .nil, _, _, slots => do
    colon
    Skipped.value
    return slots
  | .cons label schema rest, levels, name, (slot, slots) =>
    if label.covers name then
      match slot with
      | some _ => fail (.repeatedMember label.name)
      | none => do
        colon
        return (some (← schema.reader levels), slots)
    else do return (slot, ← rest.memberReader levels name slots)

/-- Reads items of a list into the fields, the first of which is the one with number `index` of the
`total` fields of the record `name`. -/
def Fields.rowReader : (fs : Fields) → (levels : Nat) → (name : String) → (total index : Nat) →
    (first : Bool) → Reader fs.Row
  | .nil, _, _, _, _, _ => return ()
  | .cons label schema rest, levels, name, total, index, first => do
    if ← hasItem first then
      let a ← schema.reader levels
      return (a, ← rest.rowReader levels name total (index + 1) false)
    else if label.required then fail (.wrongLength index (.elements name total))
    else return (schema.zero, ← rest.rowReader levels name total (index + 1) first)

end

/-- What a schema makes of a whole document. -/
def Schema.read (s : Schema) (document : String) : Except Failure s.Val :=
  Document.whole (s.reader maxLevels) document

end Json
end CodeQuality
