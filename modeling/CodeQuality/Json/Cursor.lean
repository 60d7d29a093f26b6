import CodeQuality.Json.Cause

/-!
# Reading a document from front to back

A `Cursor` is what is left of a document and the place where it begins; places count octets in a
line. A `Reader` moves the cursor on and gives a value or fails. Most failures name their place. A
fault that shows only when a value is complete stands without one until an enclosing value gives it
the place where that ends.
-/

namespace CodeQuality
namespace Json

/-- A place in a document: its line, and how many octets of the line lie before it. -/
structure Place where
  line : Nat
  column : Nat
deriving DecidableEq, Repr

/-- The place behind a character. -/
def Place.behind (p : Place) (c : Char) : Place :=
  if c = '\n' then ⟨p.line + 1, 0⟩ else ⟨p.line, p.column + c.utf8Size⟩

/-- What is left of a document, and where it begins. -/
structure Cursor where
  rest : List Char
  place : Place
deriving DecidableEq, Repr

namespace Cursor

/-- The start of a document. -/
def ofString (s : String) : Cursor := ⟨s.toList, ⟨1, 0⟩⟩

/-- Past the first character, if there is one. -/
def tail (c : Cursor) : Cursor :=
  match c.rest with
  | [] => c
  | x :: rest => ⟨rest, c.place.behind x⟩

/-- Past the characters at the front that satisfy `p`. -/
def dropWhile (p : Char → Bool) (c : Cursor) : Cursor :=
  ⟨c.rest.dropWhile p, (c.rest.takeWhile p).foldl Place.behind c.place⟩

/-- Past the first `n` characters. -/
def drop (n : Nat) (c : Cursor) : Cursor :=
  ⟨c.rest.drop n, (c.rest.take n).foldl Place.behind c.place⟩

/-- The place `n` octets on, which may lie inside a character; at most the end. -/
def octetsOn (c : Cursor) (n : Nat) : Place := go n c.rest c.place
where
  go (n : Nat) : List Char → Place → Place
    | [], p => p
    | x :: rest, p =>
      if n = 0 then p
      else if n < x.utf8Size then ⟨p.line, p.column + n⟩
      else go (n - x.utf8Size) rest (p.behind x)

end Cursor

/-- The blanks that may stand between the parts of a document. -/
def isSpace (c : Char) : Bool := c = ' ' || c = '\n' || c = '\t' || c = '\r'

/-- Why and where reading failed. -/
inductive Failure where
  /-- the fault has a place -/
  | placed (cause : Cause) (place : Place)
  /-- the fault has no place yet; the cursor is where reading stands -/
  | standing (cause : Cause) (cursor : Cursor)
deriving DecidableEq, Repr

namespace Failure

def cause : Failure → Cause
  | placed cause _ => cause
  | standing cause _ => cause

def message : Failure → String
  | placed cause p => cause.message ++ s!" at line {p.line} column {p.column}"
  | standing cause _ => cause.message

/-- Gives a failure without a place the place that `finish` moves the cursor to. -/
def settle (finish : Cursor → Cursor) : Failure → Failure
  | placed cause place => placed cause place
  | standing cause cursor => placed cause (finish cursor).place

end Failure

/-- Reads a value from the front of a document. -/
abbrev Reader := StateT Cursor (Except Failure)

namespace Reader

/-- Fails at the cursor. -/
def failHere {α : Type} (cause : Cause) : Reader α := fun c => .error (.placed cause c.place)

/-- Fails `n` octets on from the cursor. -/
def failBehind {α : Type} (n : Nat) (cause : Cause) : Reader α := fun c =>
  .error (.placed cause (c.octetsOn n))

/-- Fails one octet on from the cursor. -/
def failAhead {α : Type} (cause : Cause) : Reader α := failBehind 1 cause

/-- Fails without a place. -/
def fail {α : Type} (cause : Cause) : Reader α := fun c => .error (.standing cause c)

/-- Gives failures without a place the place that `finish` moves the cursor to. -/
def settled {α : Type} (finish : Cursor → Cursor) (reader : Reader α) : Reader α := fun c =>
  match reader c with
  | .ok r => .ok r
  | .error e => .error (e.settle finish)

/-- The next character, which is not read yet. -/
def peek : Reader (Option Char) := fun c => .ok (c.rest.head?, c)

/-- Passes over the next character. -/
def skip : Reader Unit := fun c => .ok ((), c.tail)

/-- Passes over `n` characters. -/
def skipMany (n : Nat) : Reader Unit := fun c => .ok ((), c.drop n)

/-- Passes over blanks, and gives the next character. -/
def peekBehindSpace : Reader (Option Char) := fun c =>
  let c := c.dropWhile isSpace
  .ok (c.rest.head?, c)

/-- Reads the letters of a name whose first letter is known. -/
def letters : List Char → Reader Unit
  | [] => pure ()
  | l :: ls => do
    match ← peek with
    | none => failHere .endInValue
    | some c =>
      if c = l then
        skip
        letters ls
      else failAhead .nameExpected

end Reader
end Json
end CodeQuality
