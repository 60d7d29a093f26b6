import CodeQuality.Json.Document
import CodeQuality.Proofs.Json.Container
import CodeQuality.Proofs.Json.NumberText
import CodeQuality.Proofs.Json.Written

/-!
# Values read back

A value that is written in any layout is read as the same value, if its numbers are integers of 64
bits and it is not nested too deeply.

* `Value.Fits` — what can be read back where so many containers may still be opened.
* `Document.written_laidOut` — reading what was written, as it stands.
* `Document.value_laidOut` — the same with the members of objects sorted.
-/

namespace CodeQuality
namespace Json

namespace Value

mutual

/-- Every number is an integer of 64 bits, and no more than `levels` containers are open at once. -/
def Fits : (levels : Nat) → Value → Prop
  | _, .null => True
  | _, .flag _ => True
  | _, .number (.integer n) => -0x8000000000000000 ≤ n ∧ n ≤ 0xFFFFFFFFFFFFFFFF
  | _, .number (.float _) => False
  | _, .text _ => True
  | 0, .list _ => False
  | 0, .object _ => False
  | levels + 1, .list items => ItemsFit levels items
  | levels + 1, .object members => MembersFit levels members

def ItemsFit (levels : Nat) : List Value → Prop
  | [] => True
  | v :: vs => v.Fits levels ∧ ItemsFit levels vs

def MembersFit (levels : Nat) : List (String × Value) → Prop
  | [] => True
  | (_, v) :: ms => v.Fits levels ∧ MembersFit levels ms

end

theorem itemsFit_of_forall {levels : Nat} : ∀ {vs : List Value}, (∀ v ∈ vs, v.Fits levels) →
    ItemsFit levels vs
  | [], _ => trivial
  | _ :: _, h => ⟨h _ List.mem_cons_self, itemsFit_of_forall fun v hv =>
      h v (List.mem_cons_of_mem _ hv)⟩

theorem laidOutItems_eq_map (l : Layout) (depth : Nat) (vs : List Value) :
    laidOutItems l depth vs = vs.map (laidOut l depth) := by
  induction vs with
  | nil => rfl
  | cons v vs ih => rw [laidOutItems, ih, List.map_cons]

/-- The text of a member from its colon on. -/
def memberTail (l : Layout) (depth : Nat) (v : Value) : List Char :=
  ':' :: (l.gap ++ v.laidOut l depth)

theorem laidOutMembers_eq_map (l : Layout) (depth : Nat) (ms : List (String × Value)) :
    laidOutMembers l depth ms =
      (ms.map fun m => (m.1, memberTail l depth m.2)).map Container.memberChars := by
  induction ms with
  | nil => rfl
  | cons m ms ih => rw [laidOutMembers, ih]; rfl

end Value

namespace Document

open Reader Container

/-! ### Values that hold no others -/

theorem exists_head_integer (n : Int) : ∃ c cs, (Number.integer n).text.toList = c :: cs ∧
    (c = '-' || c.isDigit) = true := by
  show ∃ c cs, (toString n).toList = c :: cs ∧ _
  rw [Int.toString_eq_repr, Int.repr_eq_if]
  by_cases h : 0 ≤ n
  · obtain ⟨d, ds, hds⟩ := List.exists_cons_of_ne_nil (Text.numeral_ne_nil n.toNat)
    have hd : d.isDigit = true :=
      Text.isDigit_of_mem_numeral (n := n.toNat) (hds ▸ List.mem_cons_self)
    rw [if_pos h, Nat.toList_repr]
    exact ⟨d, ds, hds, by rw [hd, Bool.or_true]⟩
  · rw [if_neg h, String.toList_append]
    exact ⟨'-', _, rfl, rfl⟩

theorem leaf_quote {cs : List Char} {s : String} (h : ∀ rest, Quoted.body.Reads cs rest s) :
    leaf.Decodes ('"' :: cs) (.value (.text s)) := by
  intro blanks rest hb _
  rw [leaf]
  refine Reads.of_peek hb rfl ?_
  exact Reads.bind (s := ['"']) (reads_skip '"' _)
    (Reads.map (fun s => Leaf.value (.text s)) (h rest))

theorem leaf_text (s : String) : leaf.Decodes (quotedChars s) (.value (.text s)) := by
  refine leaf_quote fun rest => ?_
  have hbody := Quoted.reads_body s.toList rest
  rwa [String.ofList_toList] at hbody

theorem leaf_flag (b : Bool) : leaf.Decodes (flagChars b) (.value (.flag b)) := by
  intro blanks rest hb _
  rw [leaf]
  cases b with
  | true =>
    refine Reads.of_peek hb (c := 't') rfl ?_
    exact Reads.bind (s := ['t']) (reads_skip 't' _)
      (Reads.map (fun _ => Leaf.value (.flag true)) (reads_letters ['r', 'u', 'e'] rest))
  | false =>
    refine Reads.of_peek hb (c := 'f') rfl ?_
    exact Reads.bind (s := ['f']) (reads_skip 'f' _)
      (Reads.map (fun _ => Leaf.value (.flag false)) (reads_letters ['a', 'l', 's', 'e'] rest))

theorem leaf_null : leaf.Decodes ['n', 'u', 'l', 'l'] (.value .null) := by
  intro blanks rest hb _
  rw [leaf]
  refine Reads.of_peek hb (c := 'n') rfl ?_
  exact Reads.bind (s := ['n']) (reads_skip 'n' _)
    (Reads.map (fun _ => Leaf.value .null) (reads_letters ['u', 'l', 'l'] rest))

/-- A sign or a digit begins a number, and nothing else. -/
theorem number_head {c : Char} (hc : (c = '-' || c.isDigit) = true) :
    isSpace c = false ∧ c ≠ ']' ∧ c ≠ 'n' ∧ c ≠ 't' ∧ c ≠ 'f' ∧ c ≠ '"' ∧ c ≠ '[' ∧ c ≠ '\x7b' := by
  refine ⟨?_, ?_, ?_, ?_, ?_, ?_, ?_, ?_⟩
  · rw [← Bool.not_eq_true]
    intro hs
    simp only [isSpace, Bool.or_eq_true, decide_eq_true_eq] at hs
    rcases hs with ((rfl | rfl) | rfl) | rfl <;> exact absurd hc (by decide)
  all_goals
    rintro rfl
    exact absurd hc (by decide)

theorem leaf_integer {n : Int} (h₀ : -0x8000000000000000 ≤ n) (h₁ : n ≤ 0xFFFFFFFFFFFFFFFF) :
    leaf.Decodes (Number.integer n).text.toList (.value (.number (.integer n))) := by
  intro blanks rest hb hr
  have hread := NumberText.reads_integer h₀ h₁ hr
  obtain ⟨c, cs, hcs, hc⟩ := exists_head_integer n
  obtain ⟨hspace, -, hn, ht, hf, hq, hl, ho⟩ := number_head hc
  rw [hcs] at hread ⊢
  rw [leaf]
  refine Reads.of_peek hb hspace ?_
  split
  · next heq => cases heq
  · next heq => exact absurd (Option.some.inj heq) hn
  · next heq => exact absurd (Option.some.inj heq) ht
  · next heq => exact absurd (Option.some.inj heq) hf
  · next heq => exact absurd (Option.some.inj heq) hq
  · next heq => exact absurd (Option.some.inj heq) hl
  · next heq => exact absurd (Option.some.inj heq) ho
  · next heq =>
    obtain rfl := Option.some.inj heq
    rw [if_pos hc]
    exact Reads.map (fun n => Leaf.value (.number n)) hread

/-- The bracket of a list is seen and left where it is. -/
theorem leaf_list {blanks : List Char} (hb : Blanks blanks) (rest : List Char) :
    leaf.Reads blanks ('[' :: rest) .list := by
  rw [leaf]
  exact Reads.cast (Reads.bind (t := []) (reads_peek_behind hb (c := '[') rfl rest)
    (Reads.pure _ _)) (List.append_nil blanks)

theorem leaf_object {blanks : List Char} (hb : Blanks blanks)
    (rest : List Char) : leaf.Reads blanks ('\x7b' :: rest) .object := by
  rw [leaf]
  exact Reads.cast (Reads.bind (t := []) (reads_peek_behind hb (c := '\x7b') rfl rest)
    (Reads.pure _ _)) (List.append_nil blanks)

/-- A value that holds no others is read at any level. -/
theorem written_of_leaf {cs : List Char} {v : Value} (h : leaf.Decodes cs (.value v))
    (levels : Nat) : (written levels).Decodes cs v := by
  intro blanks rest hb hr
  cases levels with
  | zero =>
    rw [written]
    exact Reads.cast (Reads.bind (t := []) (h blanks rest hb hr) (Reads.pure v rest))
      (List.append_nil _)
  | succ levels =>
    rw [written]
    exact Reads.cast (Reads.bind (t := []) (h blanks rest hb hr) (Reads.pure v rest))
      (List.append_nil _)

/-- What is read as it is written is read with its members sorted. -/
theorem value_of_written {cs : List Char} {v : Value} {levels : Nat}
    (h : (written levels).Decodes cs v) : (value levels).Decodes cs v.canonical := by
  intro blanks rest hb hr
  rw [value_eq_written, ← bind_pure_comp]
  exact Reads.map Value.canonical (h blanks rest hb hr)

/-! ### Containers -/

/-- No value begins with a blank, or with the bracket that closes a list. -/
theorem opens_laidOut (l : Layout) (depth : Nat) {levels : Nat} :
    ∀ {v : Value}, v.Fits levels → Opens (v.laidOut l depth)
  | .null, _ => ⟨'n', _, rfl, rfl, by decide⟩
  | .flag true, _ => ⟨'t', _, rfl, rfl, by decide⟩
  | .flag false, _ => ⟨'f', _, rfl, rfl, by decide⟩
  | .number (.integer n), _ => by
    obtain ⟨c, cs, hcs, hc⟩ := exists_head_integer n
    obtain ⟨hspace, hbracket, -⟩ := number_head hc
    exact ⟨c, cs, hcs, hspace, hbracket⟩
  | .text _, _ => ⟨'"', _, rfl, rfl, by decide⟩
  | .list _, _ => ⟨'[', _, rfl, rfl, by decide⟩
  | .object _, _ => ⟨'\x7b', _, rfl, rfl, by decide⟩

/-- A list is read if its items are. -/
theorem written_decodes_list {levels : Nat} {lead close : List Char} {vs : List Value}
    {text : Value → List Char} (hl : Blanks lead) (hc : Blanks close)
    (h : ∀ v ∈ vs, Opens (text v) ∧ (written levels).Decodes (text v) v) :
    (written (levels + 1)).Decodes ('[' :: (between lead close (vs.map text) ++ [']']))
      (.list vs) := by
  intro blanks rest hb _
  have hbody : (listBody (written levels)).Reads (between lead close (vs.map text)) (']' :: rest)
      (vs.map id) := reads_listBody hl hc h rest
  rw [List.map_id] at hbody
  rw [written]
  refine Reads.bind (s := blanks) (leaf_list hb _) ?_
  refine Reads.bind (s := ['[']) (reads_skip '[' _) ?_
  refine Reads.settled (Reads.bind hbody ?_)
  exact Reads.bind (s := [']']) (reads_closeList rest) (Reads.pure _ rest)

/-- An object is read if its members are. -/
theorem written_decodes_object {levels : Nat} {lead close : List Char}
    {ms : List (String × List Char)} {members : List (String × Value)} (hl : Blanks lead)
    (hc : Blanks close) (h : Gathers (writtenStep levels) ms [] members) :
    (written (levels + 1)).Decodes
      ('\x7b' :: (between lead close (ms.map memberChars) ++ ['\x7d']))
      (.object members.reverse) := by
  intro blanks rest hb _
  have hbody := reads_objectBody hl hc h rest
  rw [written]
  refine Reads.bind (s := blanks) (leaf_object hb _) ?_
  refine Reads.bind (s := ['\x7b']) (reads_skip '\x7b' _) ?_
  refine Reads.settled (Reads.bind hbody ?_)
  exact Reads.bind (s := ['\x7d']) (reads_closeObject rest) (Reads.pure _ rest)

mutual

/-- A value is read back from any layout. -/
theorem written_laidOut (l : Layout) : ∀ (v : Value) (depth levels : Nat), v.Fits levels →
    (written levels).Decodes (v.laidOut l depth) v
  | .null, _, levels, _ => written_of_leaf leaf_null levels
  | .flag b, _, levels, _ => written_of_leaf (leaf_flag b) levels
  | .number (.integer _), _, levels, h => written_of_leaf (leaf_integer h.1 h.2) levels
  | .text s, _, levels, _ => written_of_leaf (leaf_text s) levels
  | .list vs, depth, levels + 1, h => by
    have hitems := items_laidOut l vs (depth + 1) levels h
    rw [Value.laidOut, Value.laidOutItems_eq_map]
    exact written_decodes_list (l.isSpace_line _) (l.isSpace_line _) hitems
  | .object ms, depth, levels + 1, h => by
    have hmembers := members_laidOut l ms (depth + 1) levels h []
    rw [List.append_nil] at hmembers
    have hobject := written_decodes_object (l.isSpace_line (depth + 1)) (l.isSpace_line depth)
      hmembers
    rwa [List.reverse_reverse, ← Value.laidOutMembers_eq_map] at hobject

theorem items_laidOut (l : Layout) : ∀ (vs : List Value) (depth levels : Nat),
    Value.ItemsFit levels vs → ∀ v ∈ vs, Opens (v.laidOut l depth) ∧
      (written levels).Decodes (v.laidOut l depth) v
  | [], _, _, _ => List.forall_mem_nil _
  | w :: ws, depth, levels, ⟨hw, hws⟩ =>
    List.forall_mem_cons.mpr ⟨⟨opens_laidOut l depth hw, written_laidOut l w depth levels hw⟩,
      items_laidOut l ws depth levels hws⟩

/-- Reading a member puts it in front of those before it. -/
theorem members_laidOut (l : Layout) : ∀ (ms : List (String × Value)) (depth levels : Nat),
    Value.MembersFit levels ms → ∀ members,
      Gathers (writtenStep levels) (ms.map fun m => (m.1, Value.memberTail l depth m.2)) members
        (ms.reverse ++ members)
  | [], _, _, _, _ => rfl
  | (name, v) :: ms, depth, levels, ⟨hv, hms⟩, members => by
    refine ⟨(name, v) :: members, behind_colon l.isSpace_gap
      (written_laidOut l v depth levels hv) fun v => (name, v) :: members, ?_⟩
    rw [List.reverse_cons, List.append_assoc]
    exact members_laidOut l ms depth levels hms _

end

/-- A value is read back from any layout, with its members sorted. -/
theorem value_laidOut (l : Layout) (v : Value) (depth levels : Nat) (h : v.Fits levels) :
    (value levels).Decodes (v.laidOut l depth) v.canonical :=
  value_of_written (written_laidOut l v depth levels h)

end Document
end Json
end CodeQuality
