import CodeQuality.Proofs.Json.Cut
import CodeQuality.Proofs.Json.Written

/-!
# What is passed over

Passing over a value is a machine with a stack of open containers. What it passes over has a
structure of its own: a value is a leaf, or a bracket with the parts of a container behind it, and
each part is a value again. `Skipped.Scans` is this structure, and the machine passes over just what
has it: it comes back to the stack with which it has begun a value, and whatever is passed over up
to the end of a stack consists of the values that close its containers.

* `Skipped.onward` — the machine behind a value.
* `Skipped.Scans` — values and parts of containers at their places.
* `Skipped.value_ok_iff` — what is passed over.
-/

namespace CodeQuality
namespace Json

open Reader

variable {α : Type}

namespace Reader

/-- What has been taken tells where reading has come to. -/
theorem Took.cursor {S : List Char → Prop} {reader : Reader α} {c c' : Cursor} {a : α}
    {used : List Char} (h : Took S reader c a c' used) :
    reader c = .ok (a, ⟨c'.rest, c.place.past used⟩) := by
  have hread := h.reads c'.rest (.inl rfl) c.place
  rwa [← h.text] at hread

/-- If some fuel is enough, and as much as characters are taken is enough, then all the characters
that there are are enough. -/
theorem ok_of_took {S : List Char → Prop} {loop : Nat → Reader Unit} {c c' : Cursor} {k m : Nat}
    (h : ∀ n, loop (n + k) c = .ok ((), c'))
    (htook : ∀ n, loop n c = .ok ((), c') →
      ∃ used, used ≠ [] ∧ ∀ m, used.length ≤ m → Took S (loop m) c () c' used)
    (hm : c.rest.length ≤ m) : loop m c = .ok ((), c') := by
  obtain ⟨used, -, hused⟩ := htook _ (h m)
  have hlength : used.length ≤ m := by
    have htext := congrArg List.length (hused _ (Nat.le_refl _)).text
    rw [List.length_append] at htext
    omega
  -- With more fuel the machine comes to the same place.
  have hmore := (hused (m + k) (by omega)).cursor
  have hplace : c' = ⟨c'.rest, c.place.past used⟩ :=
    (Prod.mk.inj (Except.ok.inj ((h m).symm.trans hmore))).2
  rw [hplace]
  exact (hused m hlength).cursor

end Reader

namespace Skipped

/-! ### The machine -/

/-- What the machine does behind a value, or behind a bracket that has just been opened: it closes
what it can and goes on with the next value. -/
def onward (behindValue : Bool) (n : Nat) (frames : List Frame) : Reader Unit :=
  closings behindValue frames >>= fun left => if left.isEmpty then pure () else values n left

theorem values_eq_onward (n : Nat) (frames : List Frame) :
    values (n + 1) frames = leaf >>= fun opened =>
      onward opened.isNone n (opened.toList ++ frames) := values_succ n frames

section Onward

variable {frame : Frame} {frames : List Frame} {c c' : Cursor} {n : Nat}

/-- A bracket closes the innermost container, which is a value of the one around it. -/
theorem onward_close {behindValue : Bool}
    (h : (c.dropWhile isSpace).rest.head? = some frame.close) :
    onward behindValue n (frame :: frames) c =
      onward true n frames (c.dropWhile isSpace).tail := by
  have hcomma : (decide (frame.close = ',') && behindValue) = false := by
    cases frame <;> rfl
  rw [onward, closings, bind_assoc, peekBehindSpace_bind, h]
  simp only [hcomma, Bool.false_eq_true, if_false, if_true]
  rfl

/-- Behind the bracket that opens a container its first value comes. -/
theorem onward_first {x : Char} (h : (c.dropWhile isSpace).rest.head? = some x)
    (hx : x ≠ frame.close) : onward false n (frame :: frames) c =
      (frame.lead >>= fun _ => values n (frame :: frames)) (c.dropWhile isSpace) := by
  rw [onward, closings, bind_assoc, peekBehindSpace_bind, h]
  simp only [Bool.and_false, Bool.false_eq_true, if_false, hx, bind_assoc, pure_bind,
    List.isEmpty_cons]

/-- Behind a comma another value comes. -/
theorem onward_comma (h : (c.dropWhile isSpace).rest.head? = some ',') :
    onward true n (frame :: frames) c =
      (frame.lead >>= fun _ => values n (frame :: frames)) (c.dropWhile isSpace).tail := by
  rw [onward, closings, bind_assoc, peekBehindSpace_bind, h]
  simp only [decide_true, Bool.and_true, if_true, bind_assoc, pure_bind, List.isEmpty_cons,
    Bool.false_eq_true, if_false]
  rfl

/-- There is no other way on: a bracket, the first value, or a comma. -/
theorem of_onward_ok {behindValue : Bool}
    (h : onward behindValue n (frame :: frames) c = .ok ((), c')) :
    ∃ x, (c.dropWhile isSpace).rest.head? = some x ∧
      (x = frame.close ∨ behindValue = false ∧ x ≠ frame.close ∨ behindValue = true ∧ x = ',') := by
  rw [onward, closings, bind_assoc, peekBehindSpace_bind] at h
  generalize (c.dropWhile isSpace).rest.head? = o at h ⊢
  cases o with
  | none => cases h
  | some x =>
    refine ⟨x, rfl, ?_⟩
    by_cases hclose : x = frame.close
    · exact .inl hclose
    cases behindValue with
    | false => exact .inr (.inl ⟨rfl, hclose⟩)
    | true =>
      by_cases hcomma : x = ','
      · exact .inr (.inr ⟨rfl, hcomma⟩)
      · simp only [hcomma, decide_false, Bool.false_and, Bool.false_eq_true, if_false, hclose,
          if_true] at h
        exact absurd h (failAhead_ne_ok _ _ _)

end Onward

theorem leaf_dropWhile (c : Cursor) : leaf (c.dropWhile isSpace) = leaf c := by
  rw [leaf, peekBehindSpace_bind, peekBehindSpace_bind, Cursor.dropWhile_dropWhile]

/-! ### Values and their parts -/

/-- What is passed over between two places. It is a value, or what is left of a container up to its
bracket, from the first part on or from behind another one. -/
inductive Scans : Option (Frame × Bool) → Cursor → Cursor → Prop where
  | leaf {c c' : Cursor} (h : leaf c = .ok (none, c')) : Scans none c c'
  | container {frame : Frame} {c d c' : Cursor} (h : leaf c = .ok (some frame, d))
    (hparts : Scans (some (frame, true)) d c') : Scans none c c'
  | close {frame : Frame} {first : Bool} {c : Cursor}
    (h : (c.dropWhile isSpace).rest.head? = some frame.close) :
    Scans (some (frame, first)) c (c.dropWhile isSpace).tail
  | first {frame : Frame} {c d e c' : Cursor} {x : Char}
    (h : (c.dropWhile isSpace).rest.head? = some x) (hx : x ≠ frame.close)
    (hlead : frame.lead (c.dropWhile isSpace) = .ok ((), d)) (hvalue : Scans none d e)
    (hrest : Scans (some (frame, false)) e c') : Scans (some (frame, true)) c c'
  | next {frame : Frame} {c d e c' : Cursor} (h : (c.dropWhile isSpace).rest.head? = some ',')
    (hlead : frame.lead (c.dropWhile isSpace).tail = .ok ((), d)) (hvalue : Scans none d e)
    (hrest : Scans (some (frame, false)) e c') : Scans (some (frame, false)) c c'

/-- The bracket that opens a container. -/
def Frame.bracket : Frame → Char
  | list => '['
  | object => '\x7b'

/-- A bracket is passed over, and what stands behind it. -/
theorem scans_of_bracket (frame : Frame) {c d c' : Cursor}
    (hx : (c.dropWhile isSpace).rest.head? = some frame.bracket)
    (hskip : skip (c.dropWhile isSpace) = .ok ((), d))
    (hparts : Scans (some (frame, true)) d c') : Scans none c c' := by
  obtain ⟨-, rfl⟩ := Prod.mk.inj (Except.ok.inj hskip)
  refine .container ?_ hparts
  rw [leaf, peekBehindSpace_bind, hx]
  cases frame <;> rfl

/-- Blanks in front of a value do not matter. -/
theorem scans_dropWhile_iff {c c' : Cursor} :
    Scans none (c.dropWhile isSpace) c' ↔ Scans none c c' := by
  constructor <;> intro h
  all_goals
    cases h with
    | leaf h => exact .leaf (by simpa only [leaf_dropWhile] using h)
    | container h hparts => exact .container (by simpa only [leaf_dropWhile] using h) hparts

/-- Neither do blanks in front of a part, or in front of a bracket. -/
theorem scans_of_dropWhile {frame : Frame} {first : Bool} {c c' : Cursor}
    (h : Scans (some (frame, first)) (c.dropWhile isSpace) c') :
    Scans (some (frame, first)) c c' := by
  have hsame := Cursor.dropWhile_dropWhile isSpace c
  generalize hd : c.dropWhile isSpace = d at h hsame
  cases h with
  | close h =>
    rw [hsame] at h ⊢
    exact hd ▸ .close (hd ▸ h)
  | first h hx hlead hvalue hrest =>
    rw [hsame, ← hd] at h hlead
    exact .first h hx hlead hvalue hrest
  | next h hlead hvalue hrest =>
    rw [hsame, ← hd] at h hlead
    exact .next h hlead hvalue hrest

/-- Neither do blanks in front of what leads to it. -/
theorem lead_dropWhile {frame : Frame} {c d e : Cursor}
    (hlead : frame.lead (c.dropWhile isSpace) = .ok ((), d)) (h : Scans none d e) :
    ∃ d', frame.lead c = .ok ((), d') ∧ Scans none d' e := by
  cases frame with
  | list =>
    obtain ⟨-, rfl⟩ := of_pure_ok hlead
    exact ⟨c, rfl, scans_dropWhile_iff.mp h⟩
  | object =>
    rw [Frame.lead, peekBehindSpace_bind, Cursor.dropWhile_dropWhile] at hlead
    exact ⟨d, hlead, h⟩

/-- What the containers that are open demand, the innermost of which goes on behind a value or
behind its bracket. -/
def Unwinds : List Frame → (behindValue : Bool) → Cursor → Cursor → Prop
  | [], _, c, c' => c = c'
  | frame :: frames, behindValue, c, c' =>
    ∃ d, Scans (some (frame, !behindValue)) c d ∧ Unwinds frames true d c'

/-- Whatever the machine passes over until all containers are closed closes one after the other. -/
theorem unwinds_of_onward {n : Nat}
    (hvalues : ∀ {frames c c'}, values n frames c = .ok ((), c') →
      ∃ d, Scans none c d ∧ Unwinds frames true d c')
    {frames : List Frame} {behindValue : Bool} {c c' : Cursor}
    (h : onward behindValue n frames c = .ok ((), c')) : Unwinds frames behindValue c c' := by
  induction frames generalizing behindValue c with
  | nil => exact (of_pure_ok h).2.symm
  | cons frame frames ih =>
    obtain ⟨x, hx, rfl | ⟨rfl, hne⟩ | ⟨rfl, rfl⟩⟩ := of_onward_ok h
    · rw [onward_close hx] at h
      exact ⟨_, .close hx, ih h⟩
    · rw [onward_first hx hne] at h
      obtain ⟨⟨⟩, d, hlead, h⟩ := of_bind_ok h
      obtain ⟨e, hvalue, f, hrest, hframes⟩ := hvalues h
      exact ⟨f, .first hx hne hlead hvalue hrest, hframes⟩
    · rw [onward_comma hx] at h
      obtain ⟨⟨⟩, d, hlead, h⟩ := of_bind_ok h
      obtain ⟨e, hvalue, f, hrest, hframes⟩ := hvalues h
      exact ⟨f, .next hx hlead hvalue hrest, hframes⟩

theorem scans_of_values {n : Nat} {frames : List Frame} {c c' : Cursor}
    (h : values n frames c = .ok ((), c')) : ∃ d, Scans none c d ∧ Unwinds frames true d c' := by
  induction n generalizing frames c c' with
  | zero => nomatch h
  | succ n ih =>
    rw [values_eq_onward] at h
    obtain ⟨opened, d, hleaf, h⟩ := of_bind_ok h
    have hunwinds := unwinds_of_onward ih h
    cases opened with
    | none => exact ⟨d, .leaf hleaf, hunwinds⟩
    | some frame =>
      obtain ⟨e, hparts, hframes⟩ := hunwinds
      exact ⟨e, .container hleaf hparts, hframes⟩

/-- Some rounds take the machine behind what it stands in front of. -/
def Passed : Option (Frame × Bool) → Cursor → Cursor → Prop
  | none, c, c' => ∃ k, ∀ n frames, values (n + k + 1) frames c = onward true n frames c'
  | some (frame, first), c, c' =>
    ∃ k, ∀ n frames, onward (!first) (n + k) (frame :: frames) c = onward true n frames c'

/-- The containers that were open in front of a value are open behind it. -/
theorem passed_of_scans {inside : Option (Frame × Bool)} {c c' : Cursor}
    (h : Scans inside c c') : Passed inside c c' := by
  -- The rounds for one part come first, then those for the parts that are left.
  induction h with
  | leaf h =>
    refine ⟨0, fun n frames => ?_⟩
    rw [values_eq_onward, bind_of_ok h]
    rfl
  | container h _ ih =>
    obtain ⟨k, hk⟩ := ih
    refine ⟨k, fun n frames => ?_⟩
    rw [values_eq_onward, bind_of_ok h]
    exact hk n frames
  | close h => exact ⟨0, fun n frames => onward_close h⟩
  | @first frame _ _ _ _ _ h hx hlead _ _ ihvalue ihrest =>
    obtain ⟨j, hj⟩ := ihvalue
    obtain ⟨k, hk⟩ := ihrest
    refine ⟨k + j + 1, fun n frames => (onward_first h hx).trans ?_⟩
    rw [bind_of_ok hlead, show n + (k + j + 1) = n + k + j + 1 by omega, hj]
    exact hk n frames
  | @next frame _ _ _ _ h hlead _ _ ihvalue ihrest =>
    obtain ⟨j, hj⟩ := ihvalue
    obtain ⟨k, hk⟩ := ihrest
    refine ⟨k + j + 1, fun n frames => (onward_comma h).trans ?_⟩
    rw [bind_of_ok hlead, show n + (k + j + 1) = n + k + j + 1 by omega, hj]
    exact hk n frames

/-- The machine passes over just the values. -/
theorem value_ok_iff {c c' : Cursor} : value c = .ok ((), c') ↔ Scans none c c' := by
  have hvalue : value c = values (c.rest.length + 1) [] c := rfl
  rw [hvalue]
  constructor
  · intro h
    obtain ⟨d, hscans, rfl⟩ := scans_of_values h
    exact hscans
  · intro h
    obtain ⟨k, hk⟩ := passed_of_scans h
    have htook (n : Nat) : values (n + (k + 1)) [] c = .ok ((), c') := hk n []
    exact ok_of_took htook (fun _ h => took_values h) (Nat.le_succ _)

end Skipped
end Json
end CodeQuality
