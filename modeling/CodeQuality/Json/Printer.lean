import CodeQuality.Json.Quoted

/-!
# Writing values

A value is written without any blanks, or with each item and each member on a line of its own,
indented by two blanks for each container around it. Empty containers are written without a line
break.
-/

namespace CodeQuality
namespace Json

/-- The characters of a text between quotes. -/
def quotedChars (s : String) : List Char := Quoted.encode s.toList

/-- The characters of a truth value. -/
def flagChars (b : Bool) : List Char := if b then ['t', 'r', 'u', 'e'] else ['f', 'a', 'l', 's', 'e']

namespace Value

mutual

/-- The characters of a value without blanks. -/
def compactChars : Value → List Char
  | .null => ['n', 'u', 'l', 'l']
  | .flag b => flagChars b
  | .number n => n.text.toList
  | .text s => quotedChars s
  | .list items => '[' :: (compactItems items ++ [']'])
  | .object members => '\x7b' :: (compactMembers members ++ ['\x7d'])

/-- The items of a list with commas between them. -/
def compactItems : List Value → List Char
  | [] => []
  | [v] => v.compactChars
  | v :: vs => v.compactChars ++ ',' :: compactItems vs

/-- The members of an object with commas between them. -/
def compactMembers : List (String × Value) → List Char
  | [] => []
  | [(name, v)] => quotedChars name ++ ':' :: v.compactChars
  | (name, v) :: ms => quotedChars name ++ ':' :: (v.compactChars ++ ',' :: compactMembers ms)

end

/-- A new line inside `depth` containers. -/
def newLine (depth : Nat) : List Char := '\n' :: List.replicate (2 * depth) ' '

mutual

/-- The characters of a value on lines of its own, inside `depth` containers. -/
def prettyChars (depth : Nat) : Value → List Char
  | .null => ['n', 'u', 'l', 'l']
  | .flag b => flagChars b
  | .number n => n.text.toList
  | .text s => quotedChars s
  | .list [] => ['[', ']']
  | .list items => '[' :: (prettyItems (depth + 1) items ++ newLine depth ++ [']'])
  | .object [] => ['\x7b', '\x7d']
  | .object members => '\x7b' :: (prettyMembers (depth + 1) members ++ newLine depth ++ ['\x7d'])

/-- The items of a list, each on a line of its own. -/
def prettyItems (depth : Nat) : List Value → List Char
  | [] => []
  | [v] => newLine depth ++ v.prettyChars depth
  | v :: vs => newLine depth ++ v.prettyChars depth ++ ',' :: prettyItems depth vs

/-- The members of an object, each on a line of its own. -/
def prettyMembers (depth : Nat) : List (String × Value) → List Char
  | [] => []
  | [(name, v)] => newLine depth ++ quotedChars name ++ ':' :: ' ' :: v.prettyChars depth
  | (name, v) :: ms =>
    newLine depth ++ quotedChars name ++
      ':' :: ' ' :: (v.prettyChars depth ++ ',' :: prettyMembers depth ms)

end

/-- A value without blanks. -/
def compact (v : Value) : String := String.ofList v.compactChars

/-- A value on lines of its own. -/
def pretty (v : Value) : String := String.ofList (v.prettyChars 0)

end Value
end Json
end CodeQuality
