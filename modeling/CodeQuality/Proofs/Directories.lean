import CodeQuality.Proofs.FileTree

/-!
# Making directories

Directories are made only where nothing stands. So no file is touched, whatever was reached before
is reached afterwards, and, as long as the path does not lead back out of a directory that was
missing, what was missing at its end is still missing.

* `FileTree.fileAt?_of_make` — making directories touches no file.
* `FileTree.find_of_make` — what a path has led to, it still leads to.
* `FileTree.find_eq_of_make` — a path that has led to nothing still does.
* `FileTree.Closed` — the trees that file systems hold.
-/

namespace CodeQuality
namespace FileTree

variable {t t' : FileTree} {front place goal : FilePlace} {names : List String} {name : String}
  {node : FileNode} {octets : List UInt8} {made : Bool} {result : Except FileError Unit}
  {e : FileError}

/-- The octets of the file that stands at a place. -/
def fileAt? (t : FileTree) (place : FilePlace) : Option (List UInt8) :=
  match t.at? place with
  | some (.file octets) => some octets
  | _ => none

theorem fileAt?_put_of_ne {other : FilePlace} (h : other ≠ place) :
    (t.put place node).fileAt? other = t.fileAt? other := by
  rw [fileAt?, at?_put_of_ne h, fileAt?]

/-! ### What stands afterwards -/

/-- All directories are made if each one on the way is there, or is made because nothing stands in
its place. -/
theorem makeDirectoriesFrom_cons_iff :
    t.makeDirectoriesFrom front made (name :: names) = (.ok (), t') ↔
      (t.at? (front.follow name) = some .directory ∧
        t.makeDirectoriesFrom (front.follow name) made names = (.ok (), t')) ∨
      (t.at? (front.follow name) = none ∧
        (t.put (front.follow name) .directory).makeDirectoriesFrom (front.follow name) true names =
          (.ok (), t')) := by
  rw [makeDirectoriesFrom]
  cases t.at? (front.follow name) with
  | none => simp
  | some node => cases node <;> simp

/-- Directories come where nothing was, and all else is as before, also when something is in the
way. -/
theorem at?_of_makeFrom (h : t.makeDirectoriesFrom front made names = (result, t'))
    (place : FilePlace) :
    t'.at? place = t.at? place ∨ t.at? place = none ∧ t'.at? place = some .directory := by
  induction names generalizing t front made with
  | nil =>
    cases h
    exact .inl rfl
  | cons name names ih =>
    rw [makeDirectoriesFrom] at h
    split at h
    · next hnone =>
      by_cases hplace : place = front.follow name
      · subst hplace
        have hgiven := isGiven_eq_false (by rw [hnone]; nofun)
        have hmade : (t.put (front.follow name) .directory).at? (front.follow name) =
            some .directory := at?_put_self hgiven
        rcases ih h with hsame | ⟨hfree, -⟩
        · exact .inr ⟨hnone, hsame.trans hmade⟩
        · rw [hmade] at hfree
          nomatch hfree
      · have hother : (t.put (front.follow name) .directory).at? place = t.at? place :=
          at?_put_of_ne hplace
        rw [← hother]
        exact ih h
    · cases h
      exact .inl rfl
    · exact ih h

theorem at?_of_make (h : t.makeDirectories names = (result, t')) (hplace : t.at? place = some node) :
    t'.at? place = some node := by
  rcases at?_of_makeFrom h place with hsame | ⟨hnone, -⟩
  · rw [hsame, hplace]
  · rw [hnone] at hplace
    cases hplace

/-- Making directories touches no file. -/
theorem fileAt?_of_make (h : t.makeDirectories names = (result, t')) (place : FilePlace) :
    t'.fileAt? place = t.fileAt? place := by
  unfold fileAt?
  rcases at?_of_makeFrom h place with hsame | ⟨hnone, hmade⟩
  · rw [hsame]
  · rw [hnone, hmade]

/-! ### Ways -/

/-- A way is still there if the directories on it are. -/
theorem enter_mono
    (hwithin : ∀ place, t.at? place = some .directory → t'.at? place = some .directory)
    (h : t.enter front names = .ok goal) : t'.enter front names = .ok goal := by
  induction names generalizing front with
  | nil => exact h
  | cons name names ih =>
    rw [enter] at h ⊢
    cases hnext : t.at? (front.follow name) with
    | none => rw [hnext] at h; cases h
    | some next =>
      cases next with
      | file octets => rw [hnext] at h; cases h
      | directory =>
        rw [hnext] at h
        rw [hwithin _ hnext]
        exact ih h

/-- What a path has led to, it still leads to when directories have been made. -/
theorem find_of_make {path : FilePath} (h : t.makeDirectories names = (result, t'))
    (hfind : t.find path = .ok node) : t'.find path = .ok node := by
  unfold find locate at hfind ⊢
  obtain ⟨place, hlocate, hnode⟩ := ok_bind_iff.mp hfind
  obtain ⟨front, henter, hlast⟩ := ok_bind_iff.mp hlocate
  have henter := enter_mono (fun _ => at?_of_make h) henter
  refine ok_bind_iff.mpr ⟨place, ok_bind_iff.mpr ⟨front, henter, hlast⟩, ?_⟩
  unfold nodeAt at hnode ⊢
  cases hat : t.at? place with
  | none => rw [hat] at hnode; nomatch hnode
  | some found => rw [hat] at hnode; rwa [at?_of_make h hat]

/-- The directories that have been made are on the way. -/
theorem enter_of_makeFrom (h : t.makeDirectoriesFrom front made names = (.ok (), t')) :
    t'.enter front names = .ok (names.foldl FilePlace.follow front) := by
  induction names generalizing t front made with
  | nil => rfl
  | cons name names ih =>
    have hnext : t'.at? (front.follow name) = some .directory := by
      rcases makeDirectoriesFrom_cons_iff.mp h with ⟨hdir, h⟩ | ⟨hnone, h⟩
      · rcases at?_of_makeFrom h (front.follow name) with hsame | ⟨-, hmade⟩
        · rw [hsame, hdir]
        · exact hmade
      · have hgiven : (front.follow name).isGiven = false :=
          isGiven_eq_false (t := t) (by rw [hnone]; nofun)
        rcases at?_of_makeFrom h (front.follow name) with hsame | ⟨-, hmade⟩
        · rw [hsame, at?_put_self hgiven]
        · exact hmade
    rw [enter, hnext]
    rcases makeDirectoriesFrom_cons_iff.mp h with ⟨-, h⟩ | ⟨-, h⟩ <;> exact ih h

/-! ### What is missing -/

/-- Does everything stand in a directory, and does the way out of a directory lead to one? -/
structure Closed (t : FileTree) : Prop where
  inside : ∀ place, t.at? place ≠ none → t.at? place.dropLast = some .directory
  above : ∀ place, t.at? place = some .directory → t.at? (place.follow "..") = some .directory

theorem at?_of_isGiven (h : place.isGiven = true) : t.at? place = some .directory := by
  rw [at?, if_pos h]

theorem at?_nil : t.at? [] = some .directory := at?_of_isGiven rfl

theorem follow_eq_append (h : name ≠ "..") : FilePlace.follow front name = front ++ [name] :=
  if_neg h

theorem foldl_follow (h : ∀ name ∈ names, name ≠ "..") :
    names.foldl FilePlace.follow front = front ++ names := by
  induction names generalizing front with
  | nil => exact (List.append_nil front).symm
  | cons name names ih =>
    obtain ⟨hname, hnames⟩ := List.forall_mem_cons.mp h
    rw [List.foldl_cons, follow_eq_append hname, ih hnames, List.append_assoc]
    rfl

theorem at?_of_enter (hfront : t.at? front = some .directory)
    (h : t.enter front names = .ok goal) : t.at? goal = some .directory := by
  induction names generalizing front with
  | nil => rwa [← Except.ok.inj h]
  | cons name names ih =>
    rw [enter] at h
    split at h
    · cases h
    · cases h
    · next hnext => exact ih hnext h

namespace Closed

/-- Below nothing there is nothing. -/
theorem at?_append (hclosed : t.Closed) (h : t.at? place = none) (more : FilePlace) :
    t.at? (place ++ more) = none := by
  induction more generalizing place with
  | nil => rwa [List.append_nil]
  | cons name more ih =>
    have hnext : t.at? (place ++ [name]) = none := by
      cases hnext : t.at? (place ++ [name]) with
      | none => rfl
      | some node =>
        have hdir := hclosed.inside (place ++ [name]) (by rw [hnext]; nofun)
        rw [List.dropLast_concat, h] at hdir
        nomatch hdir
    rw [List.append_cons]
    exact ih hnext

/-- What is put into a directory stands in one. -/
theorem put (hclosed : t.Closed) (hfront : t.at? front = some .directory)
    (h : t.at? (front ++ [name]) ≠ some .directory) (hname : name ≠ "..") :
    (t.put (front ++ [name]) node).Closed := by
  have hkept {place : FilePlace} (hdir : t.at? place = some .directory) :
      (t.put (front ++ [name]) node).at? place = some .directory := by
    rw [at?_put_of_ne (by rintro rfl; exact h hdir), hdir]
  constructor
  · intro place hplace
    by_cases heq : place = front ++ [name]
    · rw [heq, List.dropLast_concat]
      exact hkept hfront
    · rw [at?_put_of_ne heq] at hplace
      exact hkept (hclosed.inside place hplace)
  · intro place hplace
    by_cases heq : place = front ++ [name]
    · subst heq
      by_cases hempty : name = ""
      · simpa [FilePlace.follow, hempty] using hplace
      · have habove : FilePlace.follow (front ++ [name]) ".." = front := by
          unfold FilePlace.follow
          rw [if_pos rfl, List.getLast?_concat]
          split
          · next heq => nomatch heq
          · next heq => exact absurd (Option.some.inj heq) hempty
          · next heq => exact absurd (Option.some.inj heq) hname
          · exact List.dropLast_concat
        rw [habove]
        exact hkept hfront
    · rw [at?_put_of_ne heq] at hplace
      exact hkept (hclosed.above place hplace)

/-- Making directories leaves everything in directories. -/
theorem makeFrom (hclosed : t.Closed) (hfront : t.at? front = some .directory)
    (h : t.makeDirectoriesFrom front made names = (result, t')) : t'.Closed := by
  induction names generalizing t front made with
  | nil =>
    cases h
    exact hclosed
  | cons name names ih =>
    rw [makeDirectoriesFrom] at h
    split at h
    case h_2 =>
      cases h
      exact hclosed
    case h_3 hdir => exact ih hclosed hdir h
    case h_1 hnone =>
      have hne : t.at? (front.follow name) ≠ some .directory := by rw [hnone]; nofun
      have hname : name ≠ ".." := by
        rintro rfl
        exact hne (hclosed.above front hfront)
      have hmade : (t.put (front.follow name) .directory).at? (front.follow name) =
          some .directory := at?_put_self (isGiven_eq_false hne)
      refine ih ?_ hmade h
      rw [follow_eq_append hname] at hne ⊢
      exact hclosed.put hfront hne hname

theorem make (hclosed : t.Closed) (h : t.makeDirectories names = (result, t')) : t'.Closed :=
  hclosed.makeFrom at?_nil h

/-- A file where a path leads to leaves everything in directories. -/
theorem putFile {path : FilePath} (hclosed : t.Closed) (h : t.target path = .ok place) :
    (t.put place (.file octets)).Closed := by
  obtain ⟨hlocate, hplace, -⟩ := target_ok_iff.mp h
  obtain ⟨front, henter, hlast⟩ := ok_bind_iff.mp hlocate
  have hfront := at?_of_enter at?_nil henter
  split at hlast
  · cases hlast
    exact absurd hfront hplace
  · next name _ =>
    cases hlast
    have hname : name ≠ ".." := by
      rintro rfl
      exact hplace (hclosed.above front hfront)
    rw [follow_eq_append hname] at hplace ⊢
    exact hclosed.put hfront hplace hname

/-- Where there is nothing but what is always there, everything is in a directory. -/
theorem empty : Closed {} := by
  have hgiven {place : FilePlace} (h : ({} : FileTree).at? place ≠ none) :
      place = [""] ∨ ∀ name ∈ place, name = ".." := by
    unfold at? at h
    split at h
    · next hgiven => simpa [FilePlace.isGiven] using hgiven
    · exact absurd rfl h
  have hat {place : FilePlace} (h : ∀ name ∈ place, name = "..") :
      ({} : FileTree).at? place = some .directory :=
    at?_of_isGiven (by simpa [FilePlace.isGiven] using .inr h)
  constructor
  · intro place h
    rcases hgiven h with rfl | h
    · exact at?_nil
    · exact hat fun name hmem => h name (List.dropLast_subset _ hmem)
  · intro place h
    rcases hgiven (by rw [h]; nofun) with rfl | h
    · exact at?_of_isGiven rfl
    · rcases List.eq_nil_or_concat place with rfl | ⟨names, name, rfl⟩
      · exact at?_of_isGiven rfl
      · rw [List.concat_eq_append] at h ⊢
        obtain rfl := h name (by simp)
        have hfollow : FilePlace.follow (names ++ [".."]) ".." = names ++ [".."] ++ [".."] := by
          simp [FilePlace.follow]
        rw [hfollow]
        apply hat
        intro name hmem
        rcases List.mem_append.mp hmem with hmem | hmem
        · exact h name hmem
        · exact List.mem_singleton.mp hmem

end Closed

/-! ### What is still missing -/

/-- New directories are not as far from the front as what they are made for. -/
theorem at?_of_makeFrom_of_length (hnames : ∀ name ∈ names, name ≠ "..")
    (h : t.makeDirectoriesFrom front made names = (result, t'))
    (hlength : front.length + names.length < place.length) : t'.at? place = t.at? place := by
  induction names generalizing t front made with
  | nil =>
    cases h
    rfl
  | cons name names ih =>
    obtain ⟨hname, hnames⟩ := List.forall_mem_cons.mp hnames
    have hfollow : front.follow name = front ++ [name] := follow_eq_append hname
    rw [List.length_cons] at hlength
    have hnext : (front.follow name).length + names.length < place.length := by
      rw [hfollow, List.length_append, List.length_singleton]
      omega
    rw [makeDirectoriesFrom] at h
    split at h
    · rw [ih hnames h hnext, at?_put_of_ne]
      rintro rfl
      omega
    · cases h
      rfl
    · exact ih hnames h hnext

/-- Where nothing stands, nothing is in the way. -/
theorem makeFrom_ok_of_below (hnames : ∀ name ∈ names, name ≠ "..")
    (hbelow : ∀ name more, t.at? (front ++ name :: more) = none) :
    (t.makeDirectoriesFrom front made names).1 = .ok () := by
  induction names generalizing t front made with
  | nil => rfl
  | cons name names ih =>
    obtain ⟨hname, hnames⟩ := List.forall_mem_cons.mp hnames
    rw [makeDirectoriesFrom, follow_eq_append hname, hbelow name []]
    refine ih hnames fun next more => ?_
    rw [at?_put_of_ne (by simp), List.append_assoc]
    exact hbelow name _

/-- Does each step out of a directory on the path stand behind directories that are there? -/
def IsDirect (t : FileTree) (front : FilePlace) (names : List String) : Prop :=
  ∀ way later, names = way ++ ".." :: later → ∃ place, t.enter front way = .ok place

/-- Behind something that is missing no path leads back. -/
theorem IsDirect.ne_of_none {first : String} (hclosed : t.Closed)
    (hfront : t.at? front = some .directory) (hdirect : t.IsDirect front (first :: names))
    (hnone : t.at? (front.follow first) = none) : ∀ name ∈ first :: names, name ≠ ".." := by
  rintro _ hmem rfl
  rcases List.mem_cons.mp hmem with rfl | hmem
  · exact absurd ((hclosed.above front hfront).symm.trans hnone) (Option.some_ne_none _)
  · obtain ⟨way, back, heq⟩ := List.append_of_mem hmem
    obtain ⟨place, hplace⟩ := hdirect (first :: way) back (congrArg (first :: ·) heq)
    rw [enter, hnone] at hplace
    cases hplace

theorem IsDirect.next {first : String} (hdirect : t.IsDirect front (first :: names))
    (hdir : t.at? (front.follow first) = some .directory) :
    t.IsDirect (front.follow first) names := by
  intro way later heq
  obtain ⟨place, hplace⟩ := hdirect (first :: way) later (congrArg (first :: ·) heq)
  rw [enter, hdir] at hplace
  exact ⟨place, hplace⟩

/-- If a file is in the way of a path that does not lead back, no directory has been made for it. -/
theorem eq_of_makeFrom_error (hclosed : t.Closed) (hfront : t.at? front = some .directory)
    (hdirect : t.IsDirect front names)
    (h : t.makeDirectoriesFrom front made names = (.error e, t')) : t' = t := by
  induction names generalizing front made with
  | nil => nomatch h
  | cons name names ih =>
    rw [makeDirectoriesFrom] at h
    split at h
    · next hnone =>
      -- Nothing stands below what is missing, so that nothing is in the way.
      have hne := hdirect.ne_of_none hclosed hfront hnone
      obtain ⟨hname, hnames⟩ := List.forall_mem_cons.mp hne
      rw [follow_eq_append hname] at h hnone
      have hbelow : ∀ next more, (t.put (front ++ [name]) .directory).at?
          (front ++ [name] ++ next :: more) = none := by
        intro next more
        rw [at?_put_of_ne (by simp)]
        exact hclosed.at?_append hnone _
      nomatch (congrArg Prod.fst h).symm.trans (makeFrom_ok_of_below hnames hbelow)
    · cases h
      rfl
    · next hdir => exact ih hdir (hdirect.next hdir) h

theorem find_concat {path : FilePath} (hpath : path.names = names ++ [name]) (t : FileTree) :
    t.find path =
      (t.enter [] names).bind fun front => t.nodeAt (front.follow name) path.ending := by
  unfold find locate
  rw [hpath, List.dropLast_concat, List.getLast?_concat]
  cases t.enter [] names <;> rfl

variable {ending : PathEnd}

/-- Where nothing is from some place on, the path does not lead back, and its end stays missing. -/
theorem bind_nodeAt_of_none {first : String} (hclosed : t.Closed)
    (hfront : t.at? front = some .directory)
    (hdirect : t.IsDirect front (first :: names ++ [name]))
    (hnone : t.at? (front.follow first) = none)
    (h : t.makeDirectoriesFrom front made (first :: names) = (.ok (), t')) :
    ((t'.enter front (first :: names)).bind fun front => t'.nodeAt (front.follow name) ending) =
      (t.enter front (first :: names)).bind fun front => t.nodeAt (front.follow name) ending := by
  have hne := hdirect.ne_of_none hclosed hfront hnone
  have hfirst : first ≠ ".." := hne first List.mem_cons_self
  have hnames : ∀ later ∈ first :: names, later ≠ ".." :=
    fun later hmem => hne later (List.mem_append_left [name] hmem)
  have hname : name ≠ ".." := hne name (List.mem_append_right (first :: names) (by simp))
  have hmissing : t.at? (front ++ first :: names ++ [name]) = none := by
    rw [follow_eq_append hfirst] at hnone
    have hbelow := hclosed.at?_append hnone (names ++ [name])
    rwa [List.append_assoc, List.singleton_append, ← List.cons_append, ← List.append_assoc]
      at hbelow
  have hmissing' : t'.at? (front ++ first :: names ++ [name]) = none := by
    rw [at?_of_makeFrom_of_length hnames h (by simp), hmissing]
  rw [enter_of_makeFrom h, foldl_follow hnames, enter, hnone]
  show t'.nodeAt ((front ++ first :: names).follow name) ending = .error .notFound
  rw [follow_eq_append hname]
  unfold nodeAt
  rw [hmissing']

theorem bind_nodeAt_of_make (hclosed : t.Closed) (hfront : t.at? front = some .directory)
    (hdirect : t.IsDirect front (names ++ [name]))
    (h : t.makeDirectoriesFrom front made names = (.ok (), t')) :
    ((t'.enter front names).bind fun front => t'.nodeAt (front.follow name) ending) =
      (t.enter front names).bind fun front => t.nodeAt (front.follow name) ending := by
  induction names generalizing front made with
  | nil =>
    cases h
    rfl
  | cons first names ih =>
    rcases makeDirectoriesFrom_cons_iff.mp h with ⟨hdir, hmake⟩ | ⟨hnone, hmake⟩
    · have hdir' : t'.at? (front.follow first) = some .directory := by
        rcases at?_of_makeFrom hmake (front.follow first) with hsame | ⟨-, hmade⟩
        · rw [hsame, hdir]
        · exact hmade
      rw [enter, hdir', enter, hdir]
      exact ih hdir (hdirect.next hdir) hmake
    · exact bind_nodeAt_of_none hclosed hfront hdirect hnone h

/-- What is missing at the end of a path is missing when directories have been made for it, or when
a file has been found in the way of one. -/
theorem find_eq_of_make {path : FilePath} (hclosed : t.Closed) (hdirect : t.IsDirect [] path.names)
    (h : t.makeDirectories path.parent = (result, t')) : t'.find path = t.find path := by
  have hparent : t.IsDirect [] path.parent := by
    intro way later heq
    obtain ⟨last, hlast⟩ : ∃ last, path.names = path.parent ++ last := List.dropLast_prefix _ |>.imp
      fun _ h => h.symm
    exact hdirect way (later ++ last) (by rw [hlast, heq, List.append_assoc]; rfl)
  cases result with
  | error e => rw [eq_of_makeFrom_error hclosed at?_nil hparent h]
  | ok done =>
    rcases List.eq_nil_or_concat path.names with hnil | ⟨names, name, hconcat⟩
    · rw [FilePath.parent, hnil] at h
      cases h
      rfl
    · rw [List.concat_eq_append] at hconcat
      rw [FilePath.parent, hconcat, List.dropLast_concat] at h
      rw [hconcat] at hdirect
      rw [find_concat hconcat, find_concat hconcat]
      exact bind_nodeAt_of_make hclosed at?_nil hdirect h

end FileTree
end CodeQuality
