import CodeQuality.Decimal.Binary64

/-!
# JSON values

The tree that a JSON document denotes. A number is an integer if it is written as one and fits into
64 bits, and otherwise a binary64 number. The members of an object stand in the order in which they
are written out; an object that is built from a document has them sorted by name and each name once,
which is what `insert` keeps.
-/

namespace CodeQuality
namespace Json

inductive Number where
  | integer (n : Int)
  | float (x : Binary64)
deriving DecidableEq, Repr

inductive Value where
  | null
  | flag (b : Bool)
  | number (n : Number)
  | text (s : String)
  | list (items : List Value)
  | object (members : List (String × Value))
deriving Repr

/-- The value of the member `name`, if there is one. -/
def member? {α : Type} (name : String) (members : List (String × α)) : Option α :=
  (members.find? (·.1 = name)).map (·.2)

/-- Puts a member into its place by name; a member of that name gives way to it. -/
def insert {α : Type} (name : String) (a : α) : List (String × α) → List (String × α)
  | [] => [(name, a)]
  | (n, b) :: members =>
    if name < n then (name, a) :: (n, b) :: members
    else if name = n then (name, a) :: members
    else (n, b) :: insert name a members

/-- The members sorted by name; of several with one name the last counts. -/
def sorted {α : Type} (members : List (String × α)) : List (String × α) :=
  members.foldl (fun ms m => insert m.1 m.2 ms) []

namespace Value

/-- The member `name` of an object; nothing for a value of another kind. -/
def get? (name : String) : Value → Option Value
  | object members => member? name members
  | _ => none

def asText? : Value → Option String
  | text s => some s
  | _ => none

def asList? : Value → Option (List Value)
  | list items => some items
  | _ => none

/-- The integer `n`. -/
def ofNat (n : Nat) : Value := number (.integer n)

end Value
end Json
end CodeQuality
