import CodeQuality.Json.Quoted

/-!
# Lists and objects of a document

Reading the items of a list and the members of an object, whatever their values are. Each container
uses up one of the `levels` that may still be opened inside one another. The loops hand what they
have read so far to `step`, so that one loop serves a list of values and a record alike.
-/

namespace CodeQuality
namespace Json
namespace Container

open Reader

/-- Where a list is over that ends at the cursor or has a comma there. -/
def listEnd (c : Cursor) : Cursor :=
  let c := c.dropWhile isSpace
  match c.rest.head? with
  | some ']' => c.tail
  | some ',' => c.tail.dropWhile isSpace
  | _ => c

/-- Where an object is over that ends at the cursor. -/
def objectEnd (c : Cursor) : Cursor :=
  let c := c.dropWhile isSpace
  match c.rest.head? with
  | some '}' => c.tail
  | _ => c

/-- Is there another item? The cursor is then in front of it; `first` tells whether it is the first
one, which needs no comma. -/
def hasItem (first : Bool) : Reader Bool := do
  match ← peekBehindSpace with
  | none => failHere .endInList
  | some ']' => return false
  | some c =>
    if first then return true
    else if c = ',' then do
      skip
      match ← peekBehindSpace with
      | some ']' => failAhead .trailingComma
      | some _ => return true
      | none => failHere .endInValue
    else failAhead .listCommaExpected

/-- Is there another member? The cursor is then in front of its name. -/
def hasMember (first : Bool) : Reader Bool := do
  match ← peekBehindSpace with
  | none => failHere .endInObject
  | some '}' => return false
  | some c =>
    if first then
      if c = '"' then return true else failAhead .keyNotText
    else if c = ',' then do
      skip
      match ← peekBehindSpace with
      | some '"' => return true
      | some '}' => failAhead .trailingComma
      | some _ => failAhead .keyNotText
      | none => failHere .endInValue
    else failAhead .objectCommaExpected

/-- The colon between name and value. -/
def colon : Reader Unit := do
  match ← peekBehindSpace with
  | none => failHere .endInObject
  | some ':' => skip
  | some _ => failAhead .colonExpected

/-- Passes over the bracket that closes a list. -/
def closeList : Reader Unit := do
  match ← peekBehindSpace with
  | some ']' => skip
  | some ',' => do
    skip
    match ← peekBehindSpace with
    | some ']' => failAhead .trailingComma
    | _ => failAhead .trailingCharacters
  | some _ => failAhead .trailingCharacters
  | none => failHere .endInList

/-- Passes over the brace that closes an object. -/
def closeObject : Reader Unit := do
  match ← peekBehindSpace with
  | some '}' => skip
  | some ',' => failAhead .trailingComma
  | some _ => failAhead .trailingCharacters
  | none => failHere .endInObject

/-- Opens a container whose bracket comes next. -/
def opening {α : Type} (levels : Nat) (inside : Nat → Reader α) : Reader α :=
  match levels with
  | 0 => failAhead .tooDeep
  | levels + 1 => do
    skip
    inside levels

/-- Reads all items that are left, at most `fuel`, behind those in `read`, which holds the last one
first. -/
def items {α : Type} (item : Reader α) : (fuel : Nat) → (first : Bool) → (read : List α) →
    Reader (List α)
  | 0, _, _ => failHere .endInList
  | fuel + 1, first, read => do
    if ← hasItem first then
      let a ← item
      items item fuel false (a :: read)
    else return read.reverse

/-- The items of a list whose bracket has been read. -/
def listBody {α : Type} (item : Reader α) : Reader (List α) := do
  let c ← get
  items item (c.rest.length + 1) true []

/-- A list whose bracket comes next. -/
def list {α : Type} (levels : Nat) (item : Nat → Reader α) : Reader (List α) :=
  opening levels fun levels =>
    settled listEnd do
      let as ← listBody (item levels)
      closeList
      return as

/-- Reads all members that are left, at most `fuel`. The name of each is handed to `step` with what
has been gathered so far; `step` reads the rest of the member from its colon on. -/
def members {σ : Type} (step : String → σ → Reader σ) : (fuel : Nat) → (first : Bool) →
    (gathered : σ) → Reader σ
  | 0, _, _ => failHere .endInObject
  | fuel + 1, first, gathered => do
    if ← hasMember first then
      skip
      let name ← Quoted.body
      let gathered ← step name gathered
      members step fuel false gathered
    else return gathered

/-- The members of an object whose brace has been read. -/
def objectBody {σ : Type} (step : String → σ → Reader σ) (start : σ) : Reader σ := do
  let c ← get
  members step (c.rest.length + 1) true start

end Container
end Json
end CodeQuality
