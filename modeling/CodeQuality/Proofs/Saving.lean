import CodeQuality.Proofs.Directories
import CodeQuality.Proofs.Settings

/-!
# Settings that can be saved

Whether settings can be saved depends on the path and on the timeout, and on nothing else. A path
that has taken settings takes others too. A timeout is accepted up to the largest count there is,
but the file has room for half of them only: along a sequence of accepted changes the settings can
be saved exactly as long as no larger timeout is set.

* `FileTree.Writable` — the paths at which settings can be saved.
* `Settings.save_ok_iff` — which settings can be saved where.
* `Settings.storable_apply_iff` — a change.
* `Settings.savable_iff_fits` — a sequence of changes.
-/

namespace CodeQuality
namespace FileTree

variable {t : FileTree} {front place goal : FilePlace} {names : List String} {target : FilePath}
  {path : String}

/-- Is there a place for a file at `path` when the directories that lead there have been made? -/
def Writable (t : FileTree) (path : String) : Prop :=
  ∃ target made place, FilePath.ofString? path = some target ∧
    t.makeDirectories target.parent = (.ok (), made) ∧ made.target target = .ok place

/-- Nothing is made on a way that is there. -/
theorem makeDirectoriesFrom_of_enter (h : t.enter front names = .ok goal) (made : Bool) :
    t.makeDirectoriesFrom front made names = (.ok (), t) := by
  induction names generalizing front with
  | nil => rfl
  | cons name names ih =>
    rw [enter] at h
    apply makeDirectoriesFrom_cons_iff.mpr
    cases hnext : t.at? (front.follow name) with
    | none => rw [hnext] at h; cases h
    | some node =>
      cases node with
      | file octets => rw [hnext] at h; cases h
      | directory =>
        rw [hnext] at h
        exact .inl ⟨rfl, ih h⟩

/-- Where a file has been put, another one can be put. -/
theorem writable_put (hpath : FilePath.ofString? path = some target)
    (htarget : t.target target = .ok place) (octets : List UInt8) :
    (t.put place (.file octets)).Writable path := by
  obtain ⟨hlocate, hplace, hending⟩ := target_ok_iff.mp htarget
  obtain ⟨front, henter, -⟩ := ok_bind_iff.mp hlocate
  have hway : (t.put place (.file octets)).enter _ _ = .ok front := enter_put hplace henter
  have hthere : (t.put place (.file octets)).at? place ≠ some .directory := by
    rw [at?_put_self (isGiven_eq_false hplace)]
    nofun
  exact ⟨target, _, place, hpath, makeDirectoriesFrom_of_enter hway false,
    target_ok_iff.mpr ⟨locate_put hplace hlocate, hthere, hending⟩⟩

end FileTree

namespace Settings

variable {s s' : Settings} {files files' : FileTree} {path : String}

/-! ### What saving needs -/

theorem toToml_ok_iff : (∃ document, s.toToml = .ok document) ↔ s.Storable := by
  constructor
  · rintro ⟨document, h⟩
    obtain ⟨lines, hlines, -⟩ := map_ok_iff.mp h
    exact (toLines_ok hlines).1
  · intro hs
    have hfits : (s.timeoutSecs.any fun n => maxTimeout < n.toNat) = false := by
      rw [Option.any_eq_false]
      intro n hn
      have hn := hs n hn
      unfold maxTimeout
      simp
      omega
    unfold toToml toLines
    rw [hfits]
    exact ⟨_, rfl⟩

/-- Settings are saved exactly if the document has room for them and the path for a file. -/
theorem save_ok_iff : (s.save files path).1 = .ok () ↔ s.Storable ∧ files.Writable path := by
  constructor
  · intro h
    obtain ⟨target, document, made, place, hpath, hmake, hdocument, htarget, -⟩ :=
      save_eq_ok_iff.mp (Prod.ext h rfl)
    exact ⟨toToml_ok_iff.mp ⟨document, hdocument⟩, target, made, place, hpath, hmake, htarget⟩
  · rintro ⟨hs, target, made, place, hpath, hmake, htarget⟩
    obtain ⟨document, hdocument⟩ := toToml_ok_iff.mpr hs
    exact congrArg Prod.fst (save_eq_ok_iff.mpr
      ⟨target, document, made, place, hpath, hmake, hdocument, htarget, FileTree.fits_none _, rfl⟩)

/-- A path that has taken settings takes others too. -/
theorem writable_of_save (h : s.save files path = (.ok (), files')) : files'.Writable path := by
  obtain ⟨target, document, made, place, hpath, -, -, htarget, -, rfl⟩ := save_eq_ok_iff.mp h
  exact FileTree.writable_put hpath htarget _

/-! ### Changes -/

/-- A change of the settings. -/
inductive Change where
  | set (key : SettingKey) (value : String)
  | unset (key : SettingKey)
deriving DecidableEq, Repr

namespace Change

/-- The settings after a change, if it is accepted. -/
def apply (s : Settings) : Change → Except SettingsError Settings
  | set key value => s.set key value
  | unset key => .ok (s.unset key)

/-- Does the file have room for what is set, if it is a timeout? -/
def Fits : Change → Prop
  | set .timeoutSecs value => ∀ n, readCount value = .ok n → n.toNat ≤ maxTimeout
  | _ => True

end Change

/-- The settings after changes all of which are accepted. -/
def applyAll (s : Settings) (changes : List Change) : Except SettingsError Settings :=
  changes.foldlM Change.apply s

/-- A change keeps room for the timeout exactly if it does not set one that is too large. -/
theorem storable_apply_iff {change : Change} (hs : s.Storable) (h : change.apply s = .ok s') :
    s'.Storable ↔ change.Fits := by
  have hkept (hsame : s'.timeoutSecs = s.timeoutSecs) : s'.Storable := by
    intro n hn
    exact hs n (hsame ▸ hn)
  cases change with
  | unset key =>
    obtain rfl := Except.ok.inj h
    refine ⟨fun _ => trivial, fun _ => ?_⟩
    cases key with
    | timeoutSecs => exact nofun
    | _ => exact hs
  | set key value =>
    cases key with
    | timeoutSecs =>
      rw [Change.apply, Settings.set] at h
      split at h
      · next n hn =>
        have hfits : (Change.set .timeoutSecs value).Fits ↔ n.toNat ≤ maxTimeout :=
          ⟨fun hall => hall n hn, fun hle m hm => Except.ok.inj (hn.symm.trans hm) ▸ hle⟩
        rw [hfits]
        cases h
        by_cases hzero : n = 0
        · simp [Storable, hzero]
        · simp [Storable, hzero, maxTimeout]
          omega
      · nomatch h
    | mockMode =>
      refine ⟨fun _ => trivial, fun _ => hkept ?_⟩
      rw [Change.apply, Settings.set] at h
      split at h
      · cases h
        rfl
      · nomatch h
    | _ => exact ⟨fun _ => trivial, fun _ => hkept (Except.ok.inj h ▸ rfl)⟩

/-- Along a sequence of accepted changes there is room for the timeout exactly if there is for each
that is set. -/
theorem storable_iff_fits {changes : List Change} (hs : s.Storable)
    (haccepted : s.applyAll changes = .ok s') :
    (∀ earlier t, earlier <+: changes → s.applyAll earlier = .ok t → t.Storable) ↔
      ∀ change ∈ changes, change.Fits := by
  induction changes generalizing s with
  | nil =>
    refine ⟨fun _ => List.forall_mem_nil _, ?_⟩
    rintro - earlier t hearlier ht
    obtain rfl := List.prefix_nil.mp hearlier
    obtain rfl := Except.ok.inj ht
    exact hs
  | cons change changes ih =>
    obtain ⟨next, hnext, hlater⟩ := ok_bind_iff.mp haccepted
    have hstep := storable_apply_iff hs hnext
    rw [List.forall_mem_cons, ← hstep]
    constructor
    · intro h
      have hnextFits : next.Storable :=
        h [change] next (by simp) (ok_bind_iff.mpr ⟨next, hnext, rfl⟩)
      refine ⟨hnextFits, (ih hnextFits hlater).mp ?_⟩
      intro earlier t hearlier ht
      exact h (change :: earlier) t (List.cons_prefix_cons.mpr ⟨rfl, hearlier⟩)
        (ok_bind_iff.mpr ⟨next, hnext, ht⟩)
    · rintro ⟨hnextFits, hall⟩ earlier t hearlier ht
      cases earlier with
      | nil =>
        obtain rfl := Except.ok.inj ht
        exact hs
      | cons first earlier =>
        obtain ⟨rfl, hprefix⟩ := List.cons_prefix_cons.mp hearlier
        obtain ⟨same, hsame, ht⟩ := ok_bind_iff.mp ht
        obtain rfl := Except.ok.inj (hnext.symm.trans hsame)
        exact (ih hnextFits hlater).mpr hall earlier t hprefix ht

/-- Along a sequence of accepted changes the settings can be saved at a path that has taken them,
both before and after that, exactly as long as every timeout that is set fits. -/
theorem savable_iff_fits (hsave : s.save files path = (.ok (), files')) {changes : List Change}
    (haccepted : s.applyAll changes = .ok s') :
    (∀ earlier t, earlier <+: changes → s.applyAll earlier = .ok t →
      (t.save files path).1 = .ok () ∧ (t.save files' path).1 = .ok ()) ↔
    ∀ change ∈ changes, change.Fits := by
  obtain ⟨hs, hwritable⟩ := save_ok_iff.mp (congrArg Prod.fst hsave)
  have hsavable (t : Settings) :
      ((t.save files path).1 = .ok () ∧ (t.save files' path).1 = .ok ()) ↔ t.Storable := by
    rw [save_ok_iff, save_ok_iff]
    exact ⟨fun h => h.1.1, fun ht => ⟨⟨ht, hwritable⟩, ht, writable_of_save hsave⟩⟩
  simp only [hsavable]
  exact storable_iff_fits hs haccepted

/-- A timeout is taken back before a larger one, the largest that fits, is set. -/
theorem savable_iff_fits_largest :
    let changes : List Change :=
      [.set .url "host/", .set .timeoutSecs "30", .unset .timeoutSecs,
        .set .timeoutSecs "+9223372036854775807"]
    ∃ s, ({} : Settings).applyAll changes = .ok s ∧ (s.save {} "sq/config.toml").1 = .ok () := by
  intro changes
  have hsave : ({} : Settings).save {} "sq/config.toml" = (.ok (), _) := rfl
  have haccepted : ({} : Settings).applyAll changes = .ok _ := rfl
  have hfits : ∀ change ∈ changes, change.Fits := by
    have hlargest (n : UInt64) (hn : readCount "+9223372036854775807" = .ok n) :
        n.toNat ≤ maxTimeout := by
      cases hn
      decide
    have hsmall (n : UInt64) (hn : readCount "30" = .ok n) : n.toNat ≤ maxTimeout := by
      cases hn
      decide
    simp [changes, Change.Fits]
    exact ⟨hsmall, hlargest⟩
  have hsavable := (savable_iff_fits hsave haccepted).mpr hfits
  exact ⟨_, haccepted, (hsavable changes _ (List.prefix_refl _) haccepted).1⟩

/-- The smallest timeout for which the file has no room is accepted. -/
theorem not_savable_of_set : ¬ ∀ (s s' : Settings) (files files' : FileTree) (path value : String)
    (key : SettingKey), s.save files path = (.ok (), files') → s.set key value = .ok s' →
      (s'.save files path).1 = .ok () := by
  intro h
  have hsaved := h {} { timeoutSecs := some 0x8000000000000000 } {} _ "config.toml"
    "9223372036854775808" .timeoutSecs rfl rfl
  nomatch hsaved

end Settings
end CodeQuality
