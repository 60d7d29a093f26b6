/-!
# TOML values

The values of a TOML document. Numbers with a fraction and points in time are told apart from other
values but not kept, since no setting holds one.
-/

namespace CodeQuality
namespace Toml

inductive Value where
  | text (s : String)
  | integer (n : Int)
  | flag (b : Bool)
  | real
  | moment
  | list (items : List Value)
  | table (entries : List (String × Value))
deriving Repr

namespace Value

/-- The entry of a table with this key. -/
def get? (key : String) : Value → Option Value
  | table entries => (entries.find? (·.1 = key)).map (·.2)
  | _ => none

end Value
end Toml
end CodeQuality
