import CodeQuality.Proofs.Normal
import CodeQuality.Proofs.Run.Invocation
import CodeQuality.Proofs.Saving

/-!
# A server that is put in as it is shown

The server that is kept can be shown, and what is shown can be put in again. This changes nothing
exactly if the server is kept in its normal form.

* `SettingsTask.ok_run_set` — a server is set wherever settings can be saved.
* `SettingsTask.set_shown_iff` — the normal form, and a server that is set as it is shown.
-/

namespace CodeQuality

open Text (isBlank startsWith)
open Server (Canonical Tidy)

namespace SettingsTask

variable {s : Surroundings} {o : GlobalOptions} {place u : String} {old new : Settings}

/-- The change that setting a server attempts. -/
theorem Attempts.eq_of_set {name place' : String} {value : Option String} {key : SettingKey}
    {found : Settings} (hplace : s.settingsPath = some place)
    (hload : Settings.load s.files place = .ok old)
    (h : (set "url" u).Attempts s name value place' key found new) :
    place' = place ∧ new = { old with url := some (normalizeServer u) } := by
  cases h.asked
  cases h.placed.symm.trans hplace
  cases h.loaded.symm.trans hload
  cases h.known
  exact ⟨rfl, (Except.ok.inj h.accepted).symm⟩

/-- A server can be set wherever the settings can be loaded and saved. -/
theorem ok_run_set (hplace : s.settingsPath = some place)
    (hload : Settings.load s.files place = .ok old) (hroom : s.room = none)
    (hsave : (old.save s.files place).1 = .ok ()) :
    (Invocation.run s ⟨o, .settings (.set "url" u)⟩).result = .ok () := by
  have hsaved {name place' : String} {value : Option String} {key : SettingKey} {found new : Settings}
      (h : (set "url" u).Attempts s name value place' key found new) :
      (new.save s.files place' s.room).1 = .ok () := by
    obtain ⟨rfl, rfl⟩ := h.eq_of_set hplace hload
    obtain ⟨hstorable, hwritable⟩ := Settings.save_ok_iff.mp hsave
    rw [hroom]
    exact Settings.save_ok_iff.mpr ⟨hstorable, hwritable⟩
  have hends := (set "url" u).ends_run s o.json
  rw [Invocation.run_of_settings rfl]
  generalize s.carryOut ((set "url" u).run s o.json) = outcome at hends ⊢
  cases hends with
  | shown htask => nomatch htask
  | failed hfails =>
    cases hfails with
    | place h => nomatch hplace.symm.trans h
    | load hplace' _ h =>
      cases hplace.symm.trans hplace'
      nomatch hload.symm.trans h
    | key hname h =>
      cases hname
      nomatch h
    | value htask _ _ hkey h =>
      cases htask
      cases hkey
      nomatch h
    | save hattempt h => nomatch (hsaved hattempt).symm.trans h
  | unsaved hattempt h => nomatch (hsaved hattempt).symm.trans (congrArg Prod.fst h)
  | saved => rfl

/-- Setting the server as it is kept changes nothing exactly if it is kept in the normal form. -/
theorem load_run_set_iff (hplace : s.settingsPath = some place)
    (hload : Settings.load s.files place = .ok old) (hurl : old.url = some u)
    (hrun : (Invocation.run s ⟨o, .settings (.set "url" u)⟩).result = .ok ()) :
    Settings.load (Invocation.run s ⟨o, .settings (.set "url" u)⟩).files place = .ok old ↔
      Canonical u := by
  have hends := (set "url" u).ends_run s o.json
  rw [Invocation.run_of_settings rfl] at hrun ⊢
  generalize s.carryOut ((set "url" u).run s o.json) = outcome at hends hrun ⊢
  cases hends with
  | shown htask => nomatch htask
  | failed => nomatch hrun
  | unsaved => nomatch hrun
  | saved hattempt hsave =>
    obtain ⟨rfl, rfl⟩ := hattempt.eq_of_set hplace hload
    dsimp only [Surroundings.shows]
    rw [Settings.load_of_save hsave, ← Server.normalize_eq_self_iff]
    constructor
    · intro h
      have hshown := congrArg Settings.url (Except.ok.inj h)
      exact Option.some.inj (hshown.trans hurl)
    · intro h
      rw [h, ← hurl]

/-- A server that is put in gets a scheme and no blank in front. It is brought into the normal form,
the form that is left as it is, exactly if it is tidy; and setting the server as it is shown changes
nothing exactly if it is kept in that form. -/
theorem set_shown_iff (x : String) :
    ((startsWith "https://" (normalizeServer x) = true ∨
        startsWith "http://" (normalizeServer x) = true) ∧
      (∀ c ∈ (normalizeServer x).toList.head?, isBlank c = false) ∧
      (Canonical (normalizeServer x) ↔ Tidy x) ∧
      (normalizeServer (normalizeServer x) = normalizeServer x ↔ Tidy x)) ∧
    ∀ (s : Surroundings) (place u : String) (old : Settings) (o : GlobalOptions),
      s.settingsPath = some place → Settings.load s.files place = .ok old → old.url = some u →
        let shown := Invocation.run s ⟨{ o with json := false }, .settings (.get "url")⟩
        let again := Invocation.run s ⟨o, .settings (.set "url" u)⟩
        (shown.result = .ok () ∧ shown.output = u ++ "\n") ∧
        (s.room = none → (old.save s.files place).1 = .ok () → again.result = .ok ()) ∧
        (again.result = .ok () → (Settings.load again.files place = .ok old ↔ Canonical u)) := by
  refine ⟨⟨Server.scheme_normalize x, Server.begins_of_scheme (Server.scheme_normalize x),
    Server.canonical_normalize_iff,
    Server.normalize_eq_self_iff.trans Server.canonical_normalize_iff⟩, ?_⟩
  intro s place u old o hplace hload hurl shown again
  have hloaded : s.loadSettings = .ok old := by
    rw [Surroundings.loadSettings, hplace]
    exact mapError_ok_iff.mpr hload
  have hkey : SettingKey.ofName? "url" = some .url := rfl
  have hshown : shown = s.shows (u ++ "\n") s.files := by
    rw [show shown = s.carryOut ((get "url").run s false) from Invocation.run_of_settings rfl,
      carryOut_get false hkey hloaded]
    exact congrArg (fun url => s.shows (valueText false "url" url) s.files) hurl
  refine ⟨?_, ok_run_set hplace hload, load_run_set_iff hplace hload hurl⟩
  rw [hshown]
  exact ⟨rfl, rfl⟩

/-- A tidy server is kept, shown and set again. -/
theorem set_shown_iff_host :
    let kept : Settings := { url := some "https://host" }
    let s : Surroundings :=
      { settingsPath := some "config.toml", files := (kept.save {} "config.toml").2, now := ⟨0, 0⟩,
        transport := fun _ => .unreachable }
    normalizeServer " host/ " = "https://host" ∧ normalizeServer "https://host" = "https://host" ∧
      (Invocation.run s ⟨{}, .settings (.get "url")⟩).output = "https://host\n" ∧
      Settings.load (Invocation.run s ⟨{}, .settings (.set "url" "https://host")⟩).files
        "config.toml" = .ok kept := by
  intro kept s
  have hsave : kept.save {} "config.toml" = (.ok (), (kept.save {} "config.toml").2) := rfl
  have hload := Settings.load_of_save hsave
  have hagain : (kept.save s.files "config.toml").1 = .ok () := rfl
  have htidy : Tidy " host/ " :=
    ⟨[' '], "host".toList, ['/'], [' '], rfl, Text.forall_of_all (by decide),
      Text.forall_of_all (by decide), Text.forall_of_all (by decide), by decide,
      by rintro _ ⟨⟩; decide, by rintro _ ⟨⟩; decide⟩
  have hmade : normalizeServer " host/ " = "https://host" := by decide +kernel
  obtain ⟨⟨-, -, hcanonical, hself⟩, hruns⟩ := set_shown_iff " host/ "
  obtain ⟨⟨-, hshown⟩, hset, hsame⟩ := hruns s "config.toml" "https://host" kept {} rfl hload rfl
  rw [hmade] at hcanonical hself
  dsimp only at hshown
  exact ⟨hmade, hself.mpr htidy, hshown.trans (by decide),
    (hsame (hset rfl hagain)).mpr (hcanonical.mpr htidy)⟩

/-- A blank before the slash is kept, and only taken away the next time. -/
theorem not_canonical_normalize : ¬ ∀ x, Canonical (normalizeServer x) ∧
    normalizeServer (normalizeServer x) = normalizeServer x := by
  intro h
  exact absurd (h "example.com /").2 (by decide +kernel)

end SettingsTask
end CodeQuality
