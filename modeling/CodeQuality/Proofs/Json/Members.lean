import CodeQuality.Json.Value

/-!
# Members in the order of their names

`insert` keeps members sorted by name, each name once, and a member that is looked up is the last
one that was put in. Members whose names differ are put in order, and none of them is lost.

* `insert_ordered`, `sorted_ordered` — the order is kept.
* `member?_insert`, `member?_sorted` — what is found behind a name.
* `sorted_perm` — sorting rearranges members whose names differ.
* `Value.canonical` — a value with the members of every object sorted.
-/

namespace CodeQuality
namespace Json

variable {α : Type}

/-- The names ascend, so that no name comes twice. -/
def Ordered (ms : List (String × α)) : Prop := ms.Pairwise fun m m' => m.1 < m'.1

theorem ordered_nil : Ordered ([] : List (String × α)) := List.Pairwise.nil

/-- Nothing but the new member comes in. -/
theorem mem_insert {name : String} {a : α} {ms : List (String × α)} {m : String × α}
    (h : m ∈ insert name a ms) : m = (name, a) ∨ m ∈ ms := by
  induction ms with
  | nil => exact .inl (List.mem_singleton.mp h)
  | cons b ms ih =>
    rw [insert] at h
    split at h
    · exact List.mem_cons.mp h
    · split at h
      · rcases List.mem_cons.mp h with rfl | h
        · exact .inl rfl
        · exact .inr (List.mem_cons_of_mem _ h)
      · rcases List.mem_cons.mp h with rfl | h
        · exact .inr List.mem_cons_self
        · exact (ih h).imp_right (List.mem_cons_of_mem _)

/-- A member is put where its name belongs. -/
theorem insert_ordered (name : String) (a : α) {ms : List (String × α)} (h : Ordered ms) :
    Ordered (insert name a ms) := by
  induction ms with
  | nil => exact List.pairwise_singleton _ _
  | cons b ms ih =>
    obtain ⟨hb, hms⟩ := List.pairwise_cons.mp h
    rw [insert]
    split
    · next hlt =>
      refine List.pairwise_cons.mpr ⟨fun m hm => ?_, h⟩
      rcases List.mem_cons.mp hm with rfl | hm
      · exact hlt
      · exact String.lt_trans hlt (hb m hm)
    · next hge =>
      split
      · next heq =>
        refine List.pairwise_cons.mpr ⟨fun m hm => ?_, hms⟩
        rw [heq]
        exact hb m hm
      · next hne =>
        refine List.pairwise_cons.mpr ⟨fun m hm => ?_, ih hms⟩
        -- What stands behind is the new member or was there before.
        rcases mem_insert hm with rfl | hm
        · refine Decidable.byContradiction fun hnot => hne ?_
          exact String.le_antisymm (String.not_lt.mp hnot) (String.not_lt.mp hge)
        · exact hb m hm

theorem foldl_insert_ordered (ms : List (String × α)) {start : List (String × α)}
    (h : Ordered start) : Ordered (ms.foldl (fun ms m => insert m.1 m.2 ms) start) := by
  induction ms generalizing start with
  | nil => exact h
  | cons m ms ih => exact ih (insert_ordered m.1 m.2 h)

theorem sorted_ordered (ms : List (String × α)) : Ordered (sorted ms) :=
  foldl_insert_ordered ms ordered_nil

theorem Ordered.nodup {ms : List (String × α)} (h : Ordered ms) : (ms.map (·.1)).Nodup := by
  refine List.pairwise_map.mpr (List.Pairwise.imp ?_ h)
  intro m m' hlt heq
  rw [heq] at hlt
  exact String.lt_irrefl _ hlt

/-! ### What is found -/

theorem member?_cons (n name : String) (a : α) (ms : List (String × α)) :
    member? n ((name, a) :: ms) = if name = n then some a else member? n ms := by
  rw [member?, List.find?_cons]
  by_cases h : name = n
  · rw [if_pos h, decide_eq_true h]; rfl
  · rw [if_neg h, decide_eq_false h]; rfl

/-- What is found is one of the members. -/
theorem mem_of_member? {name : String} {ms : List (String × α)} {a : α}
    (h : member? name ms = some a) : (name, a) ∈ ms := by
  obtain ⟨m, hm, rfl⟩ := Option.map_eq_some_iff.mp h
  have hname := List.find?_some hm
  rw [decide_eq_true_eq] at hname
  rw [← hname]
  exact List.mem_of_find?_eq_some hm

/-- The member that was put in is found, and every other one is found as before. -/
theorem member?_insert (n name : String) (a : α) (ms : List (String × α)) :
    member? n (insert name a ms) = if name = n then some a else member? n ms := by
  induction ms with
  | nil =>
    rw [insert, member?_cons]
  | cons b ms ih =>
    obtain ⟨n', b⟩ := b
    rw [insert]
    split
    · rw [member?_cons]
    · split
      · next heq => rw [member?_cons, member?_cons, ← heq]; split <;> rfl
      · next hne =>
        rw [member?_cons, member?_cons, ih]
        by_cases h : n' = n
        · rw [if_pos h, if_pos h, if_neg fun h' => hne (h'.trans h.symm)]
        · rw [if_neg h, if_neg h]

theorem member?_append (n : String) (ms ms' : List (String × α)) :
    member? n (ms ++ ms') = (member? n ms).or (member? n ms') := by
  rw [member?, List.find?_append, Option.map_or]
  rfl

theorem member?_foldl_insert (n : String) (ms start : List (String × α)) :
    member? n (ms.foldl (fun ms m => insert m.1 m.2 ms) start) =
      (member? n ms.reverse).or (member? n start) := by
  induction ms generalizing start with
  | nil => rfl
  | cons m ms ih =>
    have hm : (member? n [m]).or (member? n start) = member? n (insert m.1 m.2 start) := by
      rw [member?_insert, member?_cons]
      split <;> rfl
    rw [List.foldl_cons, ih, List.reverse_cons, member?_append, Option.or_assoc, hm]

/-- Of several members with one name the last one is found. -/
theorem member?_sorted (n : String) (ms : List (String × α)) :
    member? n (sorted ms) = member? n ms.reverse :=
  (member?_foldl_insert n ms []).trans (Option.or_none)

/-! ### Nothing is lost -/

/-- A new name adds a member. -/
theorem insert_perm_cons {name : String} {ms : List (String × α)} (h : name ∉ ms.map (·.1))
    (a : α) : (insert name a ms).Perm ((name, a) :: ms) := by
  induction ms with
  | nil => exact List.Perm.refl _
  | cons b ms ih =>
    rw [List.map_cons, List.mem_cons, not_or] at h
    rw [insert]
    split
    · exact List.Perm.refl _
    · rw [if_neg h.1]
      exact ((ih h.2).cons b).trans (List.Perm.swap _ _ _)

theorem foldl_insert_perm (start : List (String × α)) {ms : List (String × α)}
    (h : ((start ++ ms).map (·.1)).Nodup) :
    (ms.foldl (fun ms m => insert m.1 m.2 ms) start).Perm (start ++ ms) := by
  induction ms generalizing start with
  | nil => rw [List.append_nil]; exact List.Perm.refl _
  | cons m ms ih =>
    have hmiddle : (start ++ m :: ms).Perm (m :: start ++ ms) := List.perm_middle
    have hnodup := (hmiddle.map (·.1)).nodup h
    -- The new name is not among those that are there already.
    have hnew : m.1 ∉ start.map (·.1) := fun hmem =>
      (List.nodup_cons.mp hnodup).1 (List.map_append ▸ List.mem_append_left _ hmem)
    have hinsert := insert_perm_cons hnew m.2
    have hstart : ((insert m.1 m.2 start ++ ms).map (·.1)).Nodup :=
      ((hinsert.append_right ms).map (·.1)).symm.nodup hnodup
    exact (ih _ hstart).trans ((hinsert.append_right ms).trans hmiddle.symm)

/-- Members whose names differ are only rearranged. -/
theorem sorted_perm {ms : List (String × α)} (h : (ms.map (·.1)).Nodup) : (sorted ms).Perm ms :=
  foldl_insert_perm [] h

/-! ### Values whose members are sorted -/

namespace Value

mutual

/-- The value with the members of every object sorted by name. -/
def canonical : Value → Value
  | .null => .null
  | .flag b => .flag b
  | .number n => .number n
  | .text s => .text s
  | .list items => .list (canonicalItems items)
  | .object members => .object (sorted (canonicalMembers members))

def canonicalItems : List Value → List Value
  | [] => []
  | v :: vs => v.canonical :: canonicalItems vs

def canonicalMembers : List (String × Value) → List (String × Value)
  | [] => []
  | (name, v) :: ms => (name, v.canonical) :: canonicalMembers ms

end

theorem canonicalItems_eq_map (vs : List Value) : canonicalItems vs = vs.map canonical := by
  induction vs with
  | nil => rfl
  | cons v vs ih => rw [canonicalItems, ih, List.map_cons]

theorem canonicalMembers_eq_map (ms : List (String × Value)) :
    canonicalMembers ms = ms.map fun m => (m.1, m.2.canonical) := by
  induction ms with
  | nil => rfl
  | cons m ms ih => rw [canonicalMembers, ih, List.map_cons]

theorem canonical_ne_null {v : Value} (h : v ≠ .null) : v.canonical ≠ .null := by
  cases v with
  | null => exact absurd rfl h
  | _ => exact fun h => nomatch h

end Value

end Json
end CodeQuality
