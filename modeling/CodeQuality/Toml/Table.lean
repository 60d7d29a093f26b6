import CodeQuality.Toml.Value

/-!
# Tables of a TOML document

A document defines its tables piece by piece: a header opens a table for the pairs behind it, a double
header appends a table to a list, and a dotted key leads through tables that it opens on the way. Each
key is defined once. A table that was only led through may still get a header of its own; one that a
dotted key opened may not, and neither may a dotted key lead through a table that has a header.
-/

namespace CodeQuality
namespace Toml

/-- How a table came about. -/
inductive Origin where
  /-- by a header -/
  | header
  /-- by a header or key of a table inside it -/
  | ledThrough
  /-- by a dotted key -/
  | dotted
deriving DecidableEq, Repr

/-- What a key stands for while a document is read. -/
inductive Node where
  | value (v : Value)
  | table (origin : Origin) (entries : List (String × Node))
  /-- a list of tables, the last one first -/
  | tables (items : List (List (String × Node)))
deriving Repr

/-- The entries of a table that is being defined. -/
abbrev Entries := List (String × Node)

namespace Entries

def get? (key : String) (entries : Entries) : Option Node :=
  (entries.find? (·.1 = key)).map (·.2)

/-- Puts a node under a key, in the place of the entry that is there or behind all others. -/
def put (key : String) (node : Node) : Entries → Entries
  | [] => [(key, node)]
  | (k, n) :: entries => if k = key then (k, node) :: entries else (k, n) :: put key node entries

/-- Changes the entries of the table that `path` leads to by `change`, which is told whether a dotted
key has opened that table. Tables that are missing are opened on the way. -/
def change (byDots : Bool) (edit : (dotted : Bool) → Entries → Option Entries) :
    (entries : Entries) → (dotted : Bool) → (path : List String) → Option Entries
  | entries, dotted, [] => edit dotted entries
  | entries, _, key :: path =>
    match get? key entries with
    | none => do
      let inner ← change byDots edit [] byDots path
      return put key (.table (if byDots then .dotted else .ledThrough) inner) entries
    | some (.value _) => none
    | some (.tables []) => none
    | some (.tables (last :: rest)) => do
      let inner ← change byDots edit last false path
      return put key (.tables (inner :: rest)) entries
    | some (.table origin inner) =>
      if byDots && origin = .header then none
      else do
        let inner ← change byDots edit inner (origin = .dotted) path
        return put key (.table origin inner) entries

/-- Defines a pair in the table that `path` leads to by dots. -/
def define (entries : Entries) (path : List String) (key : String) (v : Value) : Option Entries :=
  entries.change true (fun dotted inner =>
    if dotted = path.isEmpty || (get? key inner).isSome then none
    else some (inner ++ [(key, .value v)])) false path

/-- Gives the table `key`, to whose parent `path` leads, a header. -/
def openTable (entries : Entries) (path : List String) (key : String) : Option Entries :=
  entries.change false (fun _ inner =>
    match get? key inner with
    | none => some (put key (.table .header []) inner)
    | some (.table .ledThrough old) => some (put key (.table .header old) inner)
    | some _ => none) false path

/-- Appends a table to the list `key`, to whose table `path` leads. -/
def appendTable (entries : Entries) (path : List String) (key : String) : Option Entries :=
  entries.change false (fun _ inner =>
    match get? key inner with
    | none => some (put key (.tables [[]]) inner)
    | some (.tables items) => some (put key (.tables ([] :: items)) inner)
    | some _ => none) false path

end Entries

mutual

/-- The value that a node has when the document is complete. -/
def Node.toValue : Node → Value
  | .value v => v
  | .table _ entries => .table (Node.entryValues entries)
  | .tables items => .list (Node.itemValues items).reverse

def Node.entryValues : List (String × Node) → List (String × Value)
  | [] => []
  | (key, node) :: entries => (key, node.toValue) :: entryValues entries

def Node.itemValues : List (List (String × Node)) → List Value
  | [] => []
  | entries :: items => .table (entryValues entries) :: itemValues items

end

end Toml
end CodeQuality
