/-!
# Steps that may fail

A program that may fail is a sequence of steps, each of which goes on with what the one before it
has come to. Here is how such a sequence is taken apart, for the two kinds that there are: those
that tell why they fail, and readers of characters, which also hand on what is left to be read.
-/

namespace CodeQuality

variable {ε ε' α β γ : Type}

/-- A sequence succeeds exactly if each of its steps does. -/
theorem ok_bind_iff {x : Except ε α} {f : α → Except ε β} {b : β} :
    x >>= f = .ok b ↔ ∃ a, x = .ok a ∧ f a = .ok b := by
  cases x with
  | error e =>
    refine ⟨(fun h => nomatch h), ?_⟩
    rintro ⟨_, h, -⟩
    nomatch h
  | ok a =>
    refine ⟨fun h => ⟨a, rfl, h⟩, ?_⟩
    rintro ⟨a', h, hf⟩
    rwa [Except.ok.inj h]

/-- A sequence fails where its first step does, or behind it. -/
theorem bind_error_iff {x : Except ε α} {f : α → Except ε β} {e : ε} :
    x >>= f = .error e ↔ x = .error e ∨ ∃ a, x = .ok a ∧ f a = .error e := by
  cases x with
  | error e' =>
    refine ⟨fun h => .inl (congrArg Except.error (Except.error.inj h)), ?_⟩
    rintro (h | ⟨_, h, -⟩)
    · exact congrArg Except.error (Except.error.inj h)
    · nomatch h
  | ok a =>
    refine ⟨fun h => .inr ⟨a, rfl, h⟩, ?_⟩
    rintro (h | ⟨a', h, hf⟩)
    · nomatch h
    · rwa [Except.ok.inj h]

theorem map_ok_iff {x : Except ε α} {f : α → β} {b : β} :
    x.map f = .ok b ↔ ∃ a, x = .ok a ∧ f a = b := by
  cases x with
  | error e =>
    refine ⟨(fun h => nomatch h), ?_⟩
    rintro ⟨_, h, -⟩
    nomatch h
  | ok a =>
    refine ⟨fun h => ⟨a, rfl, Except.ok.inj h⟩, ?_⟩
    rintro ⟨_, ⟨⟩, rfl⟩
    rfl

theorem map_error_iff {x : Except ε α} {f : α → β} {e : ε} :
    x.map f = .error e ↔ x = .error e := by
  cases x with
  | error e' =>
    exact ⟨fun h => congrArg Except.error (Except.error.inj h),
      fun h => congrArg Except.error (Except.error.inj h)⟩
  | ok a => exact ⟨(fun h => nomatch h), (fun h => nomatch h)⟩

theorem mapError_ok_iff {x : Except ε α} {f : ε → ε'} {a : α} :
    x.mapError f = .ok a ↔ x = .ok a := by
  cases x with
  | error e => exact ⟨(fun h => nomatch h), (fun h => nomatch h)⟩
  | ok a' =>
    exact ⟨fun h => congrArg Except.ok (Except.ok.inj h),
      fun h => congrArg Except.ok (Except.ok.inj h)⟩

theorem mapError_error_iff {x : Except ε α} {f : ε → ε'} {e' : ε'} :
    x.mapError f = .error e' ↔ ∃ e, x = .error e ∧ f e = e' := by
  cases x with
  | error e =>
    refine ⟨fun h => ⟨e, rfl, Except.error.inj h⟩, ?_⟩
    rintro ⟨_, ⟨⟩, rfl⟩
    rfl
  | ok a =>
    refine ⟨(fun h => nomatch h), ?_⟩
    rintro ⟨_, h, -⟩
    nomatch h

/-- A step is done for each item exactly if it succeeds for each of them. -/
theorem mapM_ok_iff {f : α → Except ε β} {as : List α} {bs : List β} :
    as.mapM f = .ok bs ↔ as.map f = bs.map .ok := by
  induction as generalizing bs with
  | nil => cases bs <;> simp [pure, Except.pure]
  | cons a as ih =>
    rw [List.mapM_cons, ok_bind_iff, List.map_cons]
    constructor
    · rintro ⟨b, hb, h⟩
      obtain ⟨bs', hbs, h⟩ := ok_bind_iff.mp h
      cases h
      rw [hb, ih.mp hbs, List.map_cons]
    · intro h
      cases bs with
      | nil => nomatch h
      | cons b bs =>
        obtain ⟨hb, hbs⟩ := List.cons.inj h
        exact ⟨b, hb, ok_bind_iff.mpr ⟨bs, ih.mpr hbs, rfl⟩⟩

/-- Something is made of all items if it is made of each. -/
theorem exists_map_ok_iff {f : α → Except ε β} {as : List α} :
    (∃ bs : List β, as.map f = bs.map .ok) ↔ ∀ a ∈ as, ∃ b, f a = .ok b := by
  induction as with
  | nil => exact ⟨fun _ => List.forall_mem_nil _, fun _ => ⟨[], rfl⟩⟩
  | cons a as ih =>
    rw [List.forall_mem_cons, ← ih]
    constructor
    · rintro ⟨bs, h⟩
      cases bs with
      | nil => nomatch h
      | cons b bs =>
        obtain ⟨hb, hbs⟩ := List.cons.inj h
        exact ⟨⟨b, hb⟩, bs, hbs⟩
    · rintro ⟨⟨b, hb⟩, bs, hbs⟩
      exact ⟨b :: bs, by rw [List.map_cons, List.map_cons, hb, hbs]⟩

/-- If `g` makes of each item what `h` makes of what `f` makes of it, this is so of all items. -/
theorem map_ok_congr {f : α → Except ε β} {g : α → Except ε γ} {h : β → Except ε' γ}
    (hgh : ∀ a b, f a = .ok b → ∀ c, g a = .ok c ↔ h b = .ok c) {as : List α} {bs : List β}
    (hab : as.map f = bs.map .ok) {cs : List γ} :
    as.map g = cs.map .ok ↔ bs.map h = cs.map .ok := by
  induction as generalizing bs cs with
  | nil =>
    obtain rfl : bs = [] := List.map_eq_nil_iff.mp hab.symm
    cases cs with
    | nil => exact ⟨fun _ => rfl, fun _ => rfl⟩
    | cons c cs => exact ⟨nofun, nofun⟩
  | cons a as ih =>
    cases bs with
    | nil => nomatch hab
    | cons b bs =>
      obtain ⟨hb, hbs⟩ := List.cons.inj hab
      cases cs with
      | nil => exact ⟨nofun, nofun⟩
      | cons c cs =>
        simp only [List.map_cons, List.cons.injEq]
        exact and_congr (hgh a b hb c) (ih hbs)

/-- A step that succeeds for each item succeeds for all of them. -/
theorem mapM_ok_of_forall {f : α → Except ε β} {g : α → β} {as : List α}
    (h : ∀ a ∈ as, f a = .ok (g a)) : as.mapM f = .ok (as.map g) := by
  rw [mapM_ok_iff, List.map_map]
  exact List.map_congr_left h

/-- Whatever has come of a step for each item has come of one of them. -/
theorem exists_of_mapM_ok {f : α → Except ε β} {as : List α} {bs : List β}
    (h : as.mapM f = .ok bs) : ∀ b ∈ bs, ∃ a ∈ as, f a = .ok b := by
  intro b hb
  have hmem : (.ok b : Except ε β) ∈ as.map f := mapM_ok_iff.mp h ▸ List.mem_map_of_mem hb
  exact List.mem_map.mp hmem

/-- A step of which nothing but `g` can come is `g` wherever it succeeds for all items. -/
theorem eq_map_of_mapM_ok {f : α → Except ε β} {g : α → β} {as : List α} {bs : List β}
    (hg : ∀ a ∈ as, ∀ b, f a = .ok b → b = g a) (h : as.mapM f = .ok bs) : bs = as.map g := by
  have hall : ∀ a ∈ as, f a = .ok (g a) := by
    intro a ha
    obtain ⟨b, hb⟩ := exists_map_ok_iff.mp ⟨bs, mapM_ok_iff.mp h⟩ a ha
    rw [hb, hg a ha b hb]
  exact Except.ok.inj (h.symm.trans (mapM_ok_of_forall hall))

/-- A step for each item fails only where it fails for one of them. -/
theorem exists_of_mapM_error {f : α → Except ε β} {as : List α} {e : ε}
    (h : as.mapM f = .error e) : ∃ a ∈ as, f a = .error e := by
  induction as with
  | nil => nomatch h
  | cons a as ih =>
    rw [List.mapM_cons] at h
    obtain ha | ⟨b, -, h⟩ := bind_error_iff.mp h
    · exact ⟨a, List.mem_cons_self, ha⟩
    · obtain hrest | ⟨bs, -, h⟩ := bind_error_iff.mp h
      · obtain ⟨a', ha', hfails⟩ := ih hrest
        exact ⟨a', List.mem_cons_of_mem a ha', hfails⟩
      · nomatch h

/-- What is made of each result is made of all of them, if they are there. -/
theorem map_map_ok_iff {f : α → Except ε β} {g : β → γ} {as : List α} {cs : List γ} :
    as.map (fun a => (f a).map g) = cs.map .ok ↔
      ∃ bs : List β, as.map f = bs.map .ok ∧ bs.map g = cs := by
  have hresults {bs : List β} (hbs : as.map f = bs.map .ok) :
      as.map (fun a => (f a).map g) = cs.map .ok ↔ bs.map g = cs := by
    refine (map_ok_congr (h := fun b => (.ok (g b) : Except ε γ)) ?_ hbs).trans ?_
    · intro a b hb c
      rw [hb]
      exact Iff.rfl
    · have hmap : bs.map (fun b => (.ok (g b) : Except ε γ)) = (bs.map g).map .ok :=
        (List.map_map ..).symm
      rw [hmap]
      exact List.map_inj_right fun _ _ => Except.ok.inj
  constructor
  · intro h
    obtain ⟨bs, hbs⟩ : ∃ bs : List β, as.map f = bs.map .ok := by
      refine exists_map_ok_iff.mpr fun a ha => ?_
      obtain ⟨c, hc⟩ := exists_map_ok_iff.mp ⟨cs, h⟩ a ha
      obtain ⟨b, hb, -⟩ := map_ok_iff.mp hc
      exact ⟨b, hb⟩
    exact ⟨bs, hbs, (hresults hbs).mp h⟩
  · rintro ⟨bs, hbs, h⟩
    exact (hresults hbs).mpr h

theorem mapM_some_iff {f : α → Option β} {as : List α} {bs : List β} :
    as.mapM f = some bs ↔ as.map f = bs.map some := by
  induction as generalizing bs with
  | nil => cases bs <;> simp
  | cons a as ih =>
    rw [List.mapM_cons, List.map_cons]
    constructor
    · intro h
      obtain ⟨b, hb, h⟩ := Option.bind_eq_some_iff.mp h
      obtain ⟨bs', hbs, h⟩ := Option.bind_eq_some_iff.mp h
      cases h
      rw [hb, ih.mp hbs, List.map_cons]
    · intro h
      cases bs with
      | nil => nomatch h
      | cons b bs =>
        obtain ⟨hb, hbs⟩ := List.cons.inj h
        exact Option.bind_eq_some_iff.mpr
          ⟨b, hb, Option.bind_eq_some_iff.mpr ⟨bs, ih.mpr hbs, rfl⟩⟩

theorem mapM_some_of_forall {f : α → Option β} {g : α → β} {as : List α}
    (h : ∀ a ∈ as, f a = some (g a)) : as.mapM f = some (as.map g) := by
  rw [mapM_some_iff, List.map_map]
  exact List.map_congr_left h

theorem exists_of_mapM_some {f : α → Option β} {as : List α} {bs : List β}
    (h : as.mapM f = some bs) : ∀ b ∈ bs, ∃ a ∈ as, f a = some b := by
  intro b hb
  have hmem : some b ∈ as.map f := mapM_some_iff.mp h ▸ List.mem_map_of_mem hb
  exact List.mem_map.mp hmem

/-- A step that is done for each item gives something for each of them. -/
theorem length_of_mapM {f : α → Option β} {as : List α} {bs : List β} (h : as.mapM f = some bs) :
    bs.length = as.length := by
  have hlength := congrArg List.length (mapM_some_iff.mp h)
  rw [List.length_map, List.length_map] at hlength
  exact hlength.symm

/-- Whether a closed program succeeds with `a` can be computed, whatever its errors are. -/
theorem toOption_eq_some_iff {x : Except ε α} {a : α} : x.toOption = some a ↔ x = .ok a := by
  cases x with
  | error e => exact ⟨(fun h => nomatch h), (fun h => nomatch h)⟩
  | ok a' => exact ⟨fun h => congrArg Except.ok (Option.some.inj h), fun h => by rw [h]; rfl⟩

/-- What comes behind a reader goes on where that reader has stopped. -/
theorem scan_bind {scan : StateT (List Char) Option α} {f : α → StateT (List Char) Option β}
    {cs rest : List Char} {a : α} (h : scan cs = some (a, rest)) : (scan >>= f) cs = f a rest := by
  show (scan cs).bind (fun r => f r.1 r.2) = f a rest
  rw [h]
  rfl

end CodeQuality
