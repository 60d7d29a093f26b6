import CodeQuality.Json.Container
import CodeQuality.Json.NumberText

/-!
# Values of a document

Reading any value. Of two members with one name the later one counts, and members are sorted by
name. A document is one value with blanks around it.
-/

namespace CodeQuality
namespace Json

/-- How many containers may be open inside one another. -/
def maxLevels : Nat := 127

namespace Document

open Reader

/-- The kinds of values that hold no others, as their first character tells. -/
inductive Leaf where
  | value (v : Value)
  | list
  | object
deriving Repr

/-- Reads a value that holds no others, or nothing of a container. -/
def leaf : Reader Leaf := do
  match ← peekBehindSpace with
  | none => failHere .endInValue
  | some 'n' => do
    skip
    letters ['u', 'l', 'l']
    return .value .null
  | some 't' => do
    skip
    letters ['r', 'u', 'e']
    return .value (.flag true)
  | some 'f' => do
    skip
    letters ['a', 'l', 's', 'e']
    return .value (.flag false)
  | some '"' => do
    skip
    return .value (.text (← Quoted.body))
  | some '[' => return .list
  | some '{' => return .object
  | some c =>
    if c = '-' || c.isDigit then return .value (.number (← NumberText.read))
    else failAhead .valueExpected

/-- Reads a value in which at most `levels` containers may be open inside one another. -/
def value : (levels : Nat) → Reader Value
  | 0 => do
    match ← leaf with
    | .value v => return v
    | _ => failAhead .tooDeep
  | levels + 1 => do
    match ← leaf with
    | .value v => return v
    | .list => do
      skip
      settled Container.listEnd do
        let vs ← Container.listBody (value levels)
        Container.closeList
        return .list vs
    | .object => do
      skip
      settled Container.objectEnd do
        let step name members := do
          Container.colon
          return insert name (← value levels) members
        let members ← Container.objectBody step []
        Container.closeObject
        return .object members

/-- Only blanks may follow. -/
def finish : Reader Unit := do
  match ← peekBehindSpace with
  | none => return ()
  | some _ => failAhead .trailingCharacters

/-- What `reader` makes of a whole document. -/
def whole {α : Type} (reader : Reader α) (s : String) : Except Failure α :=
  match (do
    let a ← reader
    finish
    return a : Reader α) (Cursor.ofString s) with
  | .ok (a, _) => .ok a
  | .error e => .error e

end Document

/-- The value that a document denotes. -/
def Value.read (s : String) : Except Failure Value := Document.whole (Document.value maxLevels) s

end Json
end CodeQuality
