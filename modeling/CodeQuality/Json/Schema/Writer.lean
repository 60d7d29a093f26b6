import CodeQuality.Json.Printer
import CodeQuality.Json.Schema
import CodeQuality.Time.Timestamp

/-!
# Writing by a schema

What has been read by a schema is written as a value again: fields in their order and under their
first name. A field that holds nothing is written as null, or left out if its label says so. Of a
fork only the inner value is written.
-/

namespace CodeQuality
namespace Json

mutual

/-- The value that is written for `a`. -/
def Schema.toValue : (s : Schema) → s.Val → Value
  | .any, v => v
  | .text, s => .text s
  | .flag, b => .flag b
  | .count, n => .number (.integer n.toNat)
  | .signed, n => .number (.integer n.toInt)
  | .date, none => .null
  | .date, some t => .text (Timestamp.text t)
  | .tag known other, tag =>
    match tag with
    | some i => .text (known.get i)
    | none => .text other
  | .optional _, none => .null
  | .optional inner, some a => inner.toValue a
  | .list item, as => .list (List.map item.toValue as)
  | .record _ fields, row => .object (fields.toMembers row)
  | .fork _ _ present _ _, .inl a => present.toValue a
  | .fork _ _ _ _ absent, .inr a => absent.toValue a

/-- The members that are written for a row. -/
def Fields.toMembers : (fs : Fields) → fs.Row → List (String × Value)
  | .nil, _ => []
  | .cons label schema rest, (a, row) =>
    let members := rest.toMembers row
    match label.omitted, schema.toValue a with
    | true, .null => members
    | _, v => (label.name, v) :: members

end

/-- The text that is written for `a`. -/
def Schema.write (s : Schema) (a : s.Val) : String := (s.toValue a).compact

end Json
end CodeQuality
