import CodeQuality.Json.Cursor
import CodeQuality.Json.Printer

/-!
# Layouts

The two ways in which values are written differ in their blanks only. A `Layout` says which blanks
stand in front of an item inside so many containers and behind the colon of a member, and
`Value.laidOut` writes a value with them. What is read back is shown once, for every layout.

* `Value.compactChars_eq`, `Value.prettyChars_eq` — both printers follow a layout.
-/

namespace CodeQuality
namespace Json

/-- The blanks that a value is written with. -/
structure Layout where
  /-- in front of an item inside `depth` containers, and of the bracket that closes one more -/
  line (depth : Nat) : List Char
  /-- behind the colon of a member -/
  gap : List Char
  isSpace_line : ∀ depth, ∀ c ∈ line depth, isSpace c = true
  isSpace_gap : ∀ c ∈ gap, isSpace c = true

namespace Layout

/-- No blanks at all. -/
def compact : Layout where
  line _ := []
  gap := []
  isSpace_line _ _ h := absurd h List.not_mem_nil
  isSpace_gap _ h := absurd h List.not_mem_nil

/-- Items and members stand on lines of their own. -/
def pretty : Layout where
  line := Value.newLine
  gap := [' ']
  isSpace_line depth c h := by
    rcases List.mem_cons.mp h with rfl | h
    · rfl
    · rw [List.eq_of_mem_replicate h]; rfl
  isSpace_gap c h := by
    rw [List.mem_singleton.mp h]; rfl

end Layout

/-- What stands between the brackets of a container whose parts are `texts`: `lead` in front of each
part, a comma between two of them, and `close` behind the last. -/
def between (lead close : List Char) : List (List Char) → List Char
  | [] => []
  | t :: ts => lead ++ t ++ (ts.flatMap fun t => ',' :: (lead ++ t)) ++ close

namespace Value

mutual

/-- The characters of a value inside `depth` containers. -/
def laidOut (l : Layout) (depth : Nat) : Value → List Char
  | .null => ['n', 'u', 'l', 'l']
  | .flag b => flagChars b
  | .number n => n.text.toList
  | .text s => quotedChars s
  | .list items =>
    '[' :: (between (l.line (depth + 1)) (l.line depth) (laidOutItems l (depth + 1) items) ++ [']'])
  | .object members =>
    '\x7b' :: (between (l.line (depth + 1)) (l.line depth)
      (laidOutMembers l (depth + 1) members) ++ ['\x7d'])

/-- The characters of each item. -/
def laidOutItems (l : Layout) (depth : Nat) : List Value → List (List Char)
  | [] => []
  | v :: vs => v.laidOut l depth :: laidOutItems l depth vs

/-- The characters of each member. -/
def laidOutMembers (l : Layout) (depth : Nat) : List (String × Value) → List (List Char)
  | [] => []
  | (name, v) :: ms =>
    (quotedChars name ++ ':' :: (l.gap ++ v.laidOut l depth)) :: laidOutMembers l depth ms

end

/-! ### The printers -/

/-- Parts stand one behind another, with a comma between two of them. -/
theorem between_cons_cons (lead close t₁ t₂ : List Char) (ts : List (List Char)) :
    between lead close (t₁ :: t₂ :: ts) = lead ++ t₁ ++ ',' :: between lead close (t₂ :: ts) := by
  simp only [between, List.flatMap_cons, List.append_assoc, List.cons_append]

theorem between_singleton (lead close t : List Char) :
    between lead close [t] = lead ++ t ++ close := by
  simp only [between, List.flatMap_nil, List.append_nil]

mutual

/-- A value without blanks is laid out without blanks. -/
theorem compactChars_eq (depth : Nat) : ∀ v : Value, v.compactChars = v.laidOut .compact depth
  | .null => rfl
  | .flag _ => rfl
  | .number _ => rfl
  | .text _ => rfl
  | .list items => by
    rw [compactChars, laidOut, compactItems_eq (depth + 1) items]; rfl
  | .object members => by
    rw [compactChars, laidOut, compactMembers_eq (depth + 1) members]; rfl

theorem compactItems_eq (depth : Nat) :
    ∀ vs : List Value, compactItems vs = between [] [] (laidOutItems .compact depth vs)
  | [] => rfl
  | [v] => by
    rw [compactItems, laidOutItems, laidOutItems, between_singleton, compactChars_eq depth v,
      List.nil_append, List.append_nil]
  | v :: w :: vs => by
    have ih := compactItems_eq depth (w :: vs)
    rw [compactItems, laidOutItems, ih, compactChars_eq depth v]
    · rw [laidOutItems, between_cons_cons, List.nil_append]
    · exact List.cons_ne_nil w vs

theorem compactMembers_eq (depth : Nat) : ∀ ms : List (String × Value),
    compactMembers ms = between [] [] (laidOutMembers .compact depth ms)
  | [] => rfl
  | [(name, v)] => by
    rw [compactMembers, laidOutMembers, laidOutMembers, between_singleton,
      compactChars_eq depth v, List.nil_append, List.append_nil]
    rfl
  | (name, v) :: m :: ms => by
    have ih := compactMembers_eq depth (m :: ms)
    rw [compactMembers, laidOutMembers, ih, compactChars_eq depth v]
    · obtain ⟨name', w⟩ := m
      rw [laidOutMembers, between_cons_cons, List.nil_append, List.append_assoc]
      rfl
    · exact List.cons_ne_nil m ms

end

mutual

/-- A value on lines of its own is laid out with a line for each part. -/
theorem prettyChars_eq (depth : Nat) : ∀ v : Value, v.prettyChars depth = v.laidOut .pretty depth
  | .null => rfl
  | .flag _ => rfl
  | .number _ => rfl
  | .text _ => rfl
  | .list [] => rfl
  | .list (v :: vs) => by
    have ih := prettyItems_eq (depth + 1) (newLine depth) (v :: vs) (List.cons_ne_nil v vs)
    rw [prettyChars, ih]
    · rfl
    · exact List.cons_ne_nil v vs
  | .object [] => rfl
  | .object (m :: ms) => by
    have ih := prettyMembers_eq (depth + 1) (newLine depth) (m :: ms) (List.cons_ne_nil m ms)
    rw [prettyChars, ih]
    · rfl
    · exact List.cons_ne_nil m ms

theorem prettyItems_eq (depth : Nat) (close : List Char) : ∀ vs : List Value, vs ≠ [] →
    prettyItems depth vs ++ close =
      between (newLine depth) close (laidOutItems .pretty depth vs)
  | [], h => absurd rfl h
  | [v], _ => by
    rw [prettyItems, laidOutItems, laidOutItems, between_singleton, prettyChars_eq depth v]
  | v :: w :: vs, _ => by
    have ih := prettyItems_eq depth close (w :: vs) (List.cons_ne_nil w vs)
    rw [prettyItems, prettyChars_eq depth v, laidOutItems]
    · rw [laidOutItems, between_cons_cons, ← laidOutItems, ← ih, List.append_assoc]
      rfl
    · exact List.cons_ne_nil w vs

theorem prettyMembers_eq (depth : Nat) (close : List Char) : ∀ ms : List (String × Value),
    ms ≠ [] → prettyMembers depth ms ++ close =
      between (newLine depth) close (laidOutMembers .pretty depth ms)
  | [], h => absurd rfl h
  | [(name, v)], _ => by
    rw [prettyMembers, laidOutMembers, laidOutMembers, between_singleton, prettyChars_eq depth v,
      List.append_assoc (newLine depth)]
    rfl
  | (name, v) :: (name', w) :: ms, _ => by
    have ih := prettyMembers_eq depth close ((name', w) :: ms) (List.cons_ne_nil (name', w) ms)
    rw [prettyMembers, prettyChars_eq depth v, laidOutMembers]
    · rw [laidOutMembers, between_cons_cons, ← laidOutMembers, ← ih]
      simp only [List.append_assoc, List.cons_append]
      rfl
    · exact List.cons_ne_nil (name', w) ms

end

end Value
end Json
end CodeQuality
