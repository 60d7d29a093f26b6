import CodeQuality.FileTree
import CodeQuality.Proofs.Steps

/-!
# What is written is read

A path is followed through directories, and a file is never written over one of them. Writing a file
therefore leaves every way that there was, the one to the file included, and at its end is what has
been written: `FileTree.read_of_write`.
-/

namespace CodeQuality
namespace FileTree

variable {t t' : FileTree} {path : FilePath} {place other goal : FilePlace} {node : FileNode}
  {octets : List UInt8} {room : Option Nat}

/-! ### One place -/

theorem isGiven_eq_false (h : t.at? place ≠ some .directory) : place.isGiven = false := by
  cases hg : place.isGiven with
  | false => rfl
  | true =>
    exfalso
    apply h
    rw [at?, if_pos hg]

/-- What is put at a place stands there, unless the place is always a directory. -/
theorem at?_put_self (h : place.isGiven = false) : (t.put place node).at? place = some node := by
  rw [at?, if_neg (by rw [h]; exact Bool.false_ne_true), put, List.lookup_cons_self]

/-- What is put at a place leaves all others. -/
theorem at?_put_of_ne (h : other ≠ place) : (t.put place node).at? other = t.at? other := by
  have hfilter (nodes : List (FilePlace × FileNode)) :
      (nodes.filter (·.1 ≠ place)).lookup other = nodes.lookup other := by
    induction nodes with
    | nil => rfl
    | cons entry nodes ih =>
      by_cases hp : entry.1 = place
      · have hother : (other == entry.1) = false := by rw [hp]; exact beq_false_of_ne h
        rw [List.filter_cons_of_neg (by simp [hp]), ih, List.lookup_cons, hother]
      · rw [List.filter_cons_of_pos (by simp [hp]), List.lookup_cons, List.lookup_cons, ih]
  have hplace : (other == place) = false := beq_false_of_ne h
  unfold at? put
  rw [List.lookup_cons, hplace, hfilter]

/-! ### Ways -/

/-- A way through directories is still there when something is put where there was none. -/
theorem enter_put {front : FilePlace} {names : List String}
    (hplace : t.at? place ≠ some .directory) (h : t.enter front names = .ok goal) :
    (t.put place node).enter front names = .ok goal := by
  induction names generalizing front with
  | nil => exact h
  | cons name names ih =>
    rw [enter] at h ⊢
    -- The way goes on only if the next place is a directory, and then it is not `place`.
    cases hnext : t.at? (front.follow name) with
    | none => rw [hnext] at h; nomatch h
    | some next =>
      cases next with
      | file octets => rw [hnext] at h; nomatch h
      | directory =>
        have hne : front.follow name ≠ place := by
          intro heq
          rw [heq] at hnext
          exact hplace hnext
        rw [hnext] at h
        rw [at?_put_of_ne hne, hnext]
        exact ih h

theorem locate_put {names : List String} (hplace : t.at? place ≠ some .directory)
    (h : t.locate names = .ok goal) : (t.put place node).locate names = .ok goal := by
  unfold locate at h ⊢
  obtain ⟨front, hfront, hlast⟩ := ok_bind_iff.mp h
  exact ok_bind_iff.mpr ⟨front, enter_put hplace hfront, hlast⟩

/-! ### Files -/

/-- A file is written where its path leads to; this is no directory, and the path ends with its
name. -/
theorem target_ok_iff : t.target path = .ok place ↔
    t.locate path.names = .ok place ∧ t.at? place ≠ some .directory ∧ path.ending = .nothing := by
  refine ok_bind_iff.trans ?_
  constructor
  · rintro ⟨found, hlocate, h⟩
    split at h
    case h_2 hat hending =>
      cases h
      exact ⟨hlocate, by rw [hat]; nofun, hending⟩
    case h_5 hat hending =>
      cases h
      exact ⟨hlocate, by rw [hat]; nofun, hending⟩
    all_goals nomatch h
  · rintro ⟨hlocate, hdirectory, hending⟩
    refine ⟨place, hlocate, ?_⟩
    rw [hending]
    cases hat : t.at? place with
    | none => rfl
    | some node =>
      cases node with
      | file => rfl
      | directory => exact absurd hat hdirectory

theorem fits_none (octets : List UInt8) : Fits none octets := fun _ h => nomatch h

theorem taken_eq_self (h : Fits room octets) : taken room octets = octets := by
  cases room with
  | none => rfl
  | some n => exact List.take_of_length_le (h n rfl)

/-- Writing a file succeeds if there is a place and room for it. -/
theorem write_ok_iff : t.write path octets room = (.ok (), t') ↔
    ∃ place, t.target path = .ok place ∧ Fits room octets ∧ t' = t.put place (.file octets) := by
  unfold write
  constructor
  · intro h
    split at h
    · nomatch h
    · next place htarget =>
      obtain ⟨hresult, rfl⟩ := Prod.mk.inj h
      split at hresult
      · next hfits => exact ⟨place, htarget, hfits, by rw [taken_eq_self hfits]⟩
      · nomatch hresult
  · rintro ⟨place, htarget, hfits, rfl⟩
    simp only [htarget, hfits, if_true, taken_eq_self hfits]

/-- What is put where a file is written is found at its path. -/
theorem find_put (h : t.target path = .ok place) (octets : List UInt8) :
    (t.put place (.file octets)).find path = .ok (.file octets) := by
  obtain ⟨hlocate, hplace, hending⟩ := target_ok_iff.mp h
  refine ok_bind_iff.mpr ⟨place, locate_put hplace hlocate, ?_⟩
  unfold nodeAt
  rw [at?_put_self (isGiven_eq_false hplace), hending]

theorem has_of_find (h : t.find path = .ok node) : t.has path = true := by
  rw [has, h]
  rfl

theorem read_of_find (h : t.find path = .ok (.file octets)) : t.read path = .ok octets :=
  ok_bind_iff.mpr ⟨_, h, rfl⟩

/-- A file that has been written is read as it was written. -/
theorem read_of_write (h : t.write path octets room = (.ok (), t')) :
    t'.read path = .ok octets := by
  obtain ⟨place, htarget, -, rfl⟩ := write_ok_iff.mp h
  exact read_of_find (find_put htarget octets)

end FileTree
end CodeQuality
