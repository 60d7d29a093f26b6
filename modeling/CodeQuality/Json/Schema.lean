import CodeQuality.Json.Value
import CodeQuality.Time.Instant

/-!
# Schemas

A schema says of which kind a value of a document has to be, and `Schema.Val` is the type of what is
read by it. A record has a list of fields; each has a label and a schema of its own, and what is
read of the whole record is a row, one value a field. A fork looks at an object before it decides by
which of two schemas to read it: the presence of one member tells.

Every schema has a `zero`, which is the value of a field that may be left out and is.
-/

namespace CodeQuality
namespace Json

/-- How a field of a record is called, and what happens if it is absent. -/
structure Label where
  name : String
  /-- a second name under which the field is read -/
  alias? : Option String := none
  /-- must the field be there? -/
  required : Bool := true
  /-- is the field left out when it holds nothing? -/
  omitted : Bool := false
deriving DecidableEq, Repr

/-- Does a member called `name` belong to the field? -/
def Label.covers (l : Label) (name : String) : Bool := l.name = name || l.alias? = some name

namespace Label

/-- A field that may be absent, and is left out when it holds nothing. -/
def optional (name : String) : Label :=
  { name := name, required := false, omitted := true }

/-- A field that may be absent and is always written. -/
def defaulted (name : String) : Label := { name := name, required := false }

/-- A field that has to be there. -/
def plain (name : String) : Label := { name := name }

end Label

mutual

/-- The kinds of values that are read. -/
inductive Schema where
  | any
  | text
  | flag
  /-- an integer from 0 to 2^32 - 1 -/
  | count
  /-- an integer from -2^31 to 2^31 - 1 -/
  | signed
  /-- a timestamp or nothing -/
  | date
  /-- one of some names; `other` is written for every name that is not among them -/
  | tag (known : List String) (other : String)
  | optional (inner : Schema)
  | list (item : Schema)
  | record (name : String) (fields : Fields)
  /-- an object that is read by the schema `present` if it has the member, else by `absent` -/
  | fork (member : String) (presentNoun : String) (present : Schema) (absentNoun : String)
    (absent : Schema)

/-- The fields of a record. -/
inductive Fields where
  | nil
  | cons (label : Label) (schema : Schema) (rest : Fields)

end

mutual

/-- What is read by a schema. -/
def Schema.Val : Schema → Type
  | .any => Value
  | .text => String
  | .flag => Bool
  | .count => UInt32
  | .signed => Int32
  | .date => Option Instant
  | .tag known _ => Option (Fin known.length)
  | .optional inner => Option inner.Val
  | .list item => List item.Val
  | .record _ fields => fields.Row
  | .fork _ _ present _ absent => present.Val ⊕ absent.Val

/-- One value for each field. -/
def Fields.Row : Fields → Type
  | .nil => Unit
  | .cons _ schema rest => schema.Val × rest.Row

end

mutual

/-- The value of an absent field. -/
def Schema.zero : (s : Schema) → s.Val
  | .any => Value.null
  | .text => ""
  | .flag => false
  | .count => (0 : UInt32)
  | .signed => (0 : Int32)
  | .date => (none : Option Instant)
  | .tag known _ => (none : Option (Fin known.length))
  | .optional inner => (none : Option inner.Val)
  | .list item => ([] : List item.Val)
  | .record _ fields => fields.zeros
  | .fork _ _ _ _ absent => .inr absent.zero

/-- The row of a record all of whose fields are absent. -/
def Fields.zeros : (fs : Fields) → fs.Row
  | .nil => ()
  | .cons _ schema rest => (schema.zero, rest.zeros)

end

namespace Fields

/-- The number of fields. -/
def size : Fields → Nat
  | .nil => 0
  | .cons _ _ rest => rest.size + 1

/-- What has been read of a record so far: one value for each field that has come up. -/
def Slots : Fields → Type
  | .nil => Unit
  | .cons _ schema rest => Option schema.Val × rest.Slots

/-- Nothing has been read yet. -/
def emptySlots : (fs : Fields) → fs.Slots
  | .nil => ()
  | .cons _ _ rest => (none, rest.emptySlots)

/-- The row of a record that is complete. Absent fields that need not be there are zero; the first
absent field that must be there is the fault. -/
def row : (fs : Fields) → fs.Slots → Except Label fs.Row
  | .nil, _ => .ok ()
  | .cons label schema rest, (slot, slots) =>
    match slot with
    | some v => do return (v, ← rest.row slots)
    | none =>
      if label.required then .error label
      else do return (schema.zero, ← rest.row slots)

end Fields

/-- What undoes a conversion item by item undoes it for a list that may be absent. -/
theorem map_map_cancel {α β : Type} {f : β → α} {g : α → β} (h : ∀ a, f (g a) = a)
    (o : Option (List α)) : (o.map (List.map g)).map (List.map f) = o := by
  have hfg : f ∘ g = id := funext h
  cases o <;> simp [hfg]

end Json
end CodeQuality
