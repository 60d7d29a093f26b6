import CodeQuality.Proofs.Directories
import CodeQuality.Proofs.Run.Command
import CodeQuality.Proofs.Settings
import CodeQuality.Run.Settings

/-!
# What a run does to the settings

A task for the settings either has changed one of them and saved the others as it has found them, or
it leaves every file as it was; only when there is no room for all of the settings, the file holds
the beginning of their document afterwards.

* `FileTree.Kept`, `Settings.Cut` — what saving that fails leaves.
* `SettingsTask.change?` — the change that a task makes.
* `SettingsTask.ends_run` — the ways in which a task can end.
-/

namespace CodeQuality

/-! ### Files that are kept -/

namespace FileTree

variable {t t' t'' : FileTree} {path : String} {target : FilePath} {names : List String}
  {place : FilePlace} {octets : List UInt8} {result : Except FileError Unit}

/-- Is the tree one that a file system holds, and do directories stand wherever the path leads back
out of one? -/
structure Tidy (path : String) (t : FileTree) : Prop where
  closed : t.Closed
  direct : ∀ target, FilePath.ofString? path = some target → t.IsDirect [] target.names

/-- Has nothing become of the files on the way from `t` to `t'`, and of what `path` leads to? -/
structure Kept (path : String) (t t' : FileTree) : Prop where
  files : ∀ place, t'.fileAt? place = t.fileAt? place
  present : ∀ target node, t.find target = .ok node → t'.find target = .ok node
  absent : t.Tidy path → ∀ target, FilePath.ofString? path = some target →
    t'.find target = t.find target

theorem Kept.refl (path : String) (t : FileTree) : t.Kept path t :=
  ⟨fun _ => rfl, fun _ _ h => h, fun _ _ _ => rfl⟩

/-- Making the directories that a path needs touches no file. -/
theorem kept_of_make (hpath : FilePath.ofString? path = some target)
    (h : t.makeDirectories target.parent = (result, t')) : t.Kept path t' where
  files := fileAt?_of_make h
  present := fun _ _ => find_of_make h
  absent := by
    intro htidy target' hpath'
    obtain rfl : target = target' := Option.some.inj (hpath.symm.trans hpath')
    exact find_eq_of_make htidy.closed (htidy.direct target hpath) h

theorem IsDirect.mono {front : FilePlace} (h : t.IsDirect front names)
    (hwithin : ∀ place, t.at? place = some .directory → t'.at? place = some .directory) :
    t'.IsDirect front names := by
  intro way later heq
  obtain ⟨place, hplace⟩ := h way later heq
  exact ⟨place, enter_mono hwithin hplace⟩

theorem Tidy.make (htidy : t.Tidy path) (h : t.makeDirectories names = (result, t')) :
    t'.Tidy path where
  closed := htidy.closed.make h
  direct := fun target hpath => (htidy.direct target hpath).mono fun _ => at?_of_make h

theorem Tidy.putFile (htidy : t.Tidy path) (h : t.target target = .ok place) :
    (t.put place (.file octets)).Tidy path where
  closed := htidy.closed.putFile h
  direct := by
    obtain ⟨-, hplace, -⟩ := target_ok_iff.mp h
    intro target' hpath
    refine (htidy.direct target' hpath).mono fun other hother => ?_
    rwa [at?_put_of_ne (by rintro rfl; exact hplace hother)]

end FileTree

/-! ### One setting -/

namespace Settings

variable {s s' : Settings} {key other : SettingKey} {value path : String} {files files' : FileTree}
  {room : Option Nat} {e : SettingsError}

/-- The settings with one of them set to what a text spells or, without a text, as it is by default. -/
def changed (s : Settings) (key : SettingKey) : (value : Option String) → Except SettingsError Settings
  | some value => s.set key value
  | none => .ok (s.unset key)

/-- Changing a setting leaves all others. -/
theorem get_set_of_ne (h : s.set key value = .ok s') (hne : other ≠ key) :
    s'.get other = s.get other := by
  cases key with
  | url => cases h; cases other <;> first | rfl | contradiction
  | defaultProject => cases h; cases other <;> first | rfl | contradiction
  | mockMode =>
    dsimp only [set] at h
    split at h
    · cases h; cases other <;> first | rfl | contradiction
    · nomatch h
  | timeoutSecs =>
    dsimp only [set] at h
    split at h
    · cases h; cases other <;> first | rfl | contradiction
    · nomatch h

theorem get_unset_of_ne (hne : other ≠ key) : (s.unset key).get other = s.get other := by
  cases key <;> cases other <;> first | rfl | contradiction

theorem get_changed_of_ne {value : Option String} (h : s.changed key value = .ok s')
    (hne : other ≠ key) : s'.get other = s.get other := by
  cases value with
  | some value => exact get_set_of_ne h hne
  | none =>
    cases h
    exact get_unset_of_ne hne

/-- A setting that is unset is shown as it is by default: not at all, unless it is a truth value. -/
theorem get_changed_none (h : s.changed key none = .ok s') : s'.get key = ({} : Settings).get key := by
  cases h
  cases key <;> rfl

/-! ### The file -/

/-- Has only the beginning of the document of the settings been written, its first `n` octets, while
all other files are as they were? -/
inductive Cut (s : Settings) (path : String) (n : Nat) (files files' : FileTree) : Prop where
  | intro {target : FilePath} {document : String} {place : FilePlace}
    (hpath : FilePath.ofString? path = some target) (hdocument : s.toToml = .ok document)
    (hcut : n < (Text.octets document.toList).length)
    (hfind : files'.find target = .ok (.file ((Text.octets document.toList).take n)))
    (hlocate : files'.locate target.names = .ok place)
    (hothers : ∀ other, other ≠ place → files'.fileAt? other = files.fileAt? other)

/-- Saving that fails has made directories at most, or there was no room for all of the document. -/
theorem kept_or_cut_of_save (h : s.save files path room = (.error e, files')) :
    files.Kept path files' ∨ ∃ n, room = some n ∧ s.Cut path n files files' := by
  have hsaves := s.saves_save files path room
  rw [h] at hsaves
  cases hsaves with
  | nowhere => exact .inl (.refl path _)
  | blocked hpath hmake | unstorable hpath hmake | unwritable hpath hmake =>
    exact .inl (FileTree.kept_of_make hpath hmake)
  | cut hpath hmake hdocument htarget hcut =>
    cases room with
    | none => exact absurd (FileTree.fits_none _) hcut
    | some n =>
      obtain ⟨hlocate, hplace, -⟩ := FileTree.target_ok_iff.mp htarget
      refine .inr ⟨n, rfl, .intro hpath hdocument ?_ (FileTree.find_put htarget _)
        (FileTree.locate_put hplace hlocate) ?_⟩
      · refine Nat.lt_of_not_le fun hle => hcut ?_
        rintro _ ⟨⟩
        exact hle
      · intro other hne
        exact (FileTree.fileAt?_put_of_ne hne).trans (FileTree.fileAt?_of_make hmake other)

/-- Saving leads to no other kind of trees. -/
theorem tidy_save (htidy : files.Tidy path) (s : Settings) (room : Option Nat) :
    (s.save files path room).2.Tidy path := by
  have hsaves := s.saves_save files path room
  revert hsaves
  generalize (s.save files path room).1 = result
  generalize (s.save files path room).2 = saved
  intro hsaves
  cases hsaves with
  | nowhere => exact htidy
  | blocked hpath hmake | unstorable hpath hmake | unwritable hpath hmake => exact htidy.make hmake
  | cut hpath hmake hdocument htarget | written hpath hmake hdocument htarget =>
    exact (htidy.make hmake).putFile htarget

end Settings

/-! ### Tasks -/

namespace SettingsTask

variable {s : Surroundings} {json : Bool} {place name : String} {value : Option String}
  {key : SettingKey} {old new : Settings} {task : SettingsTask}

/-- The name of the setting that a task is about. -/
def name? : SettingsTask → Option String
  | get name | set name _ | unset name => some name
  | list | path => none

/-- The setting that a task changes, by its name, and what it is set to, unless it is unset. -/
def change? : SettingsTask → Option (String × Option String)
  | set name value => some (name, some value)
  | unset name => some (name, none)
  | get _ | list | path => none

/-- The text for the value of a setting: nothing if it is not set. -/
def valueText (json : Bool) (name : String) (value : Option String) : String :=
  if json then
    Display.jsonText
      (.object [("key", .text name), ("value", (value.map Json.Value.text).getD .null)])
  else (value.map (· ++ "\n")).getD ""

/-- A change that a task is about to save: it knows the setting, has found the settings `old`, and
has made `new` of them. -/
structure Attempts (s : Surroundings) (task : SettingsTask) (name : String) (value : Option String)
    (place : String) (key : SettingKey) (old new : Settings) : Prop where
  asked : task.change? = some (name, value)
  placed : s.settingsPath = some place
  loaded : Settings.load s.files place = .ok old
  known : SettingKey.ofName? name = some key
  accepted : old.changed key value = .ok new

/-- Why a task fails: there is no place for the settings, they cannot be loaded from it, the setting
is not known, it does not take the value, or the settings cannot be saved. -/
inductive Fails (s : Surroundings) (task : SettingsTask) : RunError → Prop where
  | place (h : s.settingsPath = none) : Fails s task .noSettingsPath
  | load {place : String} {e : SettingsError} (hplace : s.settingsPath = some place)
    (htask : task ≠ .path) (h : Settings.load s.files place = .error e) : Fails s task (.settings e)
  | key {name : String} (htask : task.name? = some name) (h : SettingKey.ofName? name = none) :
    Fails s task (.unknownKey name)
  | value {place name : String} {value : Option String} {key : SettingKey} {old : Settings}
    {e : SettingsError} (htask : task.change? = some (name, value))
    (hplace : s.settingsPath = some place) (hload : Settings.load s.files place = .ok old)
    (hkey : SettingKey.ofName? name = some key) (h : old.changed key value = .error e) :
    Fails s task (.settings e)
  | save {place name : String} {value : Option String} {key : SettingKey} {old new : Settings}
    {e : SettingsError} (hattempt : task.Attempts s name value place key old new)
    (h : (new.save s.files place s.room).1 = .error e) : Fails s task (.settings e)

theorem name?_of_change? (h : task.change? = some (name, value)) : task.name? = some name := by
  cases task with
  | set | unset => cases h; rfl
  | get | list | path => nomatch h

theorem Fails.exitCode {e : RunError} (h : task.Fails s e) : e.exitCode = RunError.failure := by
  cases h <;> rfl

/-- The ways in which a task can end. Only a change that has come to be saved does anything to the
files. -/
inductive Ends (s : Surroundings) (json : Bool) (task : SettingsTask) : Outcome → Prop where
  | shown {text : String} (htask : task.change? = none) (h : ∀ e, ¬task.Fails s e) :
    Ends s json task (s.shows text s.files)
  | failed {e : RunError} (h : task.Fails s e) : Ends s json task (s.fails e s.files)
  | unsaved {place name : String} {value : Option String} {key : SettingKey} {old new : Settings}
    {e : SettingsError} {files : FileTree} (hattempt : task.Attempts s name value place key old new)
    (h : new.save s.files place s.room = (.error e, files)) :
    Ends s json task (s.fails (.settings e) files)
  | saved {place name text : String} {value : Option String} {key : SettingKey}
    {old new : Settings} {files : FileTree} (hattempt : task.Attempts s name value place key old new)
    (h : new.save s.files place s.room = (.ok (), files)) : Ends s json task (s.shows text files)

/-! ### What can fail -/

/-- The settings are loaded from their place, or every task fails that needs them. -/
theorem load_cases (s : Surroundings) :
    (∃ place settings, s.settingsPath = some place ∧
        Settings.load s.files place = .ok settings ∧ s.loadSettings = .ok settings) ∨
      ∃ e, s.loadSettings = .error e ∧ ∀ task, task ≠ path → Fails s task e := by
  unfold Surroundings.loadSettings
  cases hplace : s.settingsPath with
  | none => exact .inr ⟨_, rfl, fun _ _ => .place hplace⟩
  | some place =>
    dsimp only
    cases hload : Settings.load s.files place with
    | ok settings => exact .inl ⟨place, settings, rfl, hload, rfl⟩
    | error e => exact .inr ⟨_, rfl, fun _ hne => .load hplace hne hload⟩

/-- A task without a change fails only if the settings or the setting cannot be found. -/
theorem not_fails (htask : task.change? = none) (hplace : s.settingsPath = some place)
    (hload : task ≠ .path → ∃ settings, Settings.load s.files place = .ok settings)
    (hkey : ∀ name, task.name? = some name → SettingKey.ofName? name ≠ none) (e : RunError) :
    ¬task.Fails s e := by
  intro hfails
  cases hfails with
  | place h => nomatch hplace.symm.trans h
  | load hplace' hne h =>
    cases hplace.symm.trans hplace'
    obtain ⟨settings, hload⟩ := hload hne
    nomatch hload.symm.trans h
  | key hname h => exact hkey _ hname h
  | value htask' => nomatch htask.symm.trans htask'
  | save hattempt => nomatch htask.symm.trans hattempt.asked

/-- A change that is saved does not fail. -/
theorem Attempts.not_fails (h : task.Attempts s name value place key old new) {done : Unit}
    (hsave : (new.save s.files place s.room).1 = .ok done) (e : RunError) : ¬task.Fails s e := by
  intro hfails
  have hplace {place' : String} (h' : s.settingsPath = some place') : place' = place :=
    Option.some.inj (h'.symm.trans h.placed)
  cases hfails with
  | place h' => nomatch h.placed.symm.trans h'
  | load hplace' _ h' =>
    cases hplace hplace'
    nomatch h.loaded.symm.trans h'
  | key hname h' =>
    cases (name?_of_change? h.asked).symm.trans hname
    nomatch h.known.symm.trans h'
  | value htask' hplace' hload' hkey' h' =>
    cases h.asked.symm.trans htask'
    cases hplace hplace'
    cases h.loaded.symm.trans hload'
    cases h.known.symm.trans hkey'
    nomatch h.accepted.symm.trans h'
  | save hattempt h' =>
    cases h.asked.symm.trans hattempt.asked
    cases hplace hattempt.placed
    cases h.loaded.symm.trans hattempt.loaded
    cases h.known.symm.trans hattempt.known
    cases h.accepted.symm.trans hattempt.accepted
    nomatch hsave.symm.trans h'

theorem keyOf_cases (name : String) :
    match SettingKey.ofName? name with
    | some key => keyOf name = .ok key
    | none => keyOf name = .error (.unknownKey name) := by
  unfold keyOf
  cases SettingKey.ofName? name <;> rfl

/-! ### Changes -/

/-- Before anything is saved, either a change is accepted or the task fails. -/
theorem next_cases (s : Surroundings) (htask : task.change? = some (name, value)) :
    (∃ place key old new, task.Attempts s name value place key old new ∧
        next s name (fun key settings => settings.changed key value) = .ok (key, new)) ∨
      ∃ e, task.Fails s e ∧
        next s name (fun key settings => settings.changed key value) = .error e := by
  unfold next keyOf
  obtain ⟨place, old, hplace, hload, hold⟩ | ⟨e, he, hfails⟩ := load_cases s
  · rw [hold]
    cases hkey : SettingKey.ofName? name with
    | none =>
      exact .inr ⟨_, .key (name?_of_change? htask) hkey, rfl⟩
    | some key =>
      dsimp only [bind, Except.bind]
      cases hnew : old.changed key value with
      | error e => exact .inr ⟨_, .value htask hplace hload hkey hnew, rfl⟩
      | ok new => exact .inl ⟨place, key, old, new, ⟨htask, hplace, hload, hkey, hnew⟩, rfl⟩
  · rw [he]
    have hpath : task ≠ path := by
      rintro rfl
      nomatch htask
    exact .inr ⟨e, hfails task hpath, rfl⟩

/-- A change is saved and then shown, or fails before that. -/
theorem ends_update (s : Surroundings) (json : Bool) {shown : SettingKey → Settings → Command Unit}
    (htask : task.change? = some (name, value))
    (hshown : ∀ key new, ∃ text, (shown key new).Prints text) :
    Ends s json task
      (s.carryOut (update s name (fun key settings => settings.changed key value) shown)) := by
  obtain ⟨place, key, old, new, hattempt, hnext⟩ | ⟨e, hfails, hnext⟩ := next_cases s htask
  · have hrun : (update s name (fun key settings => settings.changed key value) shown).run
        { files := s.files } = (do
          Command.save new place s.room
          shown key new : Command Unit).run { files := s.files } := by
      unfold update placeOf
      rw [Command.run_bind, Command.run_require, hnext, hattempt.placed]
      rfl
    cases hsave : new.save s.files place s.room with
    | mk result files =>
      cases result with
      | error e =>
        rw [Command.run_bind, Command.run_save, hsave] at hrun
        rw [Surroundings.carryOut_error hrun rfl]
        exact .unsaved hattempt hsave
      | ok done =>
        rw [Command.run_bind, Command.run_save, hsave] at hrun
        obtain ⟨text, htext⟩ := hshown key new
        dsimp only [Except.mapError] at hrun
        rw [htext] at hrun
        rw [Surroundings.carryOut_ok hrun]
        exact .saved hattempt hsave
  · have hrun : (update s name (fun key settings => settings.changed key value) shown).run
        { files := s.files } = (.error e, { files := s.files }) := by
      unfold update
      rw [Command.run_bind, Command.run_require, hnext]
    rw [Surroundings.carryOut_error hrun rfl]
    exact .failed hfails

theorem prints_showChange (s : Surroundings) (json : Bool) (verb name : String)
    (value : Option String) : ∃ text, (showChange s json verb name value).Prints text := by
  unfold showChange
  split
  · exact ⟨_, Command.prints_printJson _⟩
  · exact ⟨_, Command.prints_print _⟩

/-! ### Values -/

theorem carryOut_get {settings : Settings} (json : Bool) (hkey : SettingKey.ofName? name = some key)
    (hload : s.loadSettings = .ok settings) :
    s.carryOut ((get name).run s json) = s.shows (valueText json name (settings.get key)) s.files := by
  apply Surroundings.carryOut_prints
  have hkeyOf : keyOf name = .ok key := by rw [keyOf, hkey]
  dsimp only [run]
  unfold showSetting
  rw [hkeyOf, hload, Command.require_ok_bind, Command.require_ok_bind]
  unfold valueText
  cases json with
  | true => exact Command.prints_printJson _
  | false =>
    cases settings.get key with
    | none => exact Command.prints_pure
    | some value =>
      have hprints := (Command.prints_print (value ++ "\n")).bind Command.prints_pure
      rwa [String.append_empty] at hprints

/-! ### All tasks -/

theorem ends_get (s : Surroundings) (json : Bool) (name : String) :
    (get name).Ends s json (s.carryOut ((get name).run s json)) := by
  have hkeyOf := keyOf_cases name
  cases hkey : SettingKey.ofName? name with
  | none =>
    rw [hkey] at hkeyOf
    dsimp only [run]
    unfold showSetting
    rw [hkeyOf, Surroundings.carryOut_require_error]
    exact .failed (.key rfl hkey)
  | some key =>
    rw [hkey] at hkeyOf
    obtain ⟨place, settings, hplace, hload, hthere⟩ | ⟨e, he, hfails⟩ := load_cases s
    · rw [carryOut_get json hkey hthere]
      refine .shown rfl (not_fails rfl hplace (fun _ => ⟨settings, hload⟩) ?_)
      rintro _ ⟨⟩
      rw [hkey]
      nofun
    · dsimp only [run]
      unfold showSetting
      rw [hkeyOf, Command.require_ok_bind, he, Surroundings.carryOut_require_error]
      exact .failed (hfails _ nofun)

theorem ends_list (s : Surroundings) (json : Bool) :
    list.Ends s json (s.carryOut (list.run s json)) := by
  dsimp only [run]
  unfold showAll
  obtain ⟨place, settings, hplace, hload, hthere⟩ | ⟨e, he, hfails⟩ := load_cases s
  · rw [hthere, Command.require_ok_bind]
    have hholds : ∀ e, ¬list.Fails s e :=
      not_fails rfl hplace (fun _ => ⟨settings, hload⟩) nofun
    split
    · rw [Surroundings.carryOut_prints (Command.prints_printJson _)]
      exact .shown rfl hholds
    · have hlines := Command.prints_forM (settingLine s.coloured settings) SettingKey.all
      rw [Surroundings.carryOut_prints ((Command.prints_print _).bind ((Command.prints_print _).bind
        ((Command.prints_print _).bind (hlines.bind (Command.prints_print _)))))]
      exact .shown rfl hholds
  · rw [he, Surroundings.carryOut_require_error]
    exact .failed (hfails _ nofun)

theorem ends_path (s : Surroundings) (json : Bool) :
    path.Ends s json (s.carryOut (path.run s json)) := by
  dsimp only [run]
  unfold showPath placeOf
  cases hplace : s.settingsPath with
  | none =>
    dsimp only
    rw [Surroundings.carryOut_require_error]
    exact .failed (.place hplace)
  | some place =>
    dsimp only
    rw [Command.require_ok_bind]
    have hholds : ∀ e, ¬path.Fails s e := not_fails rfl hplace (fun h => absurd rfl h) nofun
    split
    · rw [Surroundings.carryOut_prints (Command.prints_printJson _)]
      exact .shown rfl hholds
    · rw [Surroundings.carryOut_prints (Command.prints_print _)]
      exact .shown rfl hholds

/-- Every task ends in one of these ways. -/
theorem ends_run (s : Surroundings) (json : Bool) (task : SettingsTask) :
    task.Ends s json (s.carryOut (task.run s json)) := by
  cases task with
  | get name => exact ends_get s json name
  | list => exact ends_list s json
  | path => exact ends_path s json
  | set name value =>
    have hchange : (set name value).change? = some (name, some value) := rfl
    have hends := ends_update s json hchange fun key new =>
      prints_showChange s json "Set" name (some ((new.get key).getD ""))
    exact hends
  | unset name =>
    have hchange : (unset name).change? = some (name, none) := rfl
    have hends := ends_update s json hchange fun _ _ =>
      prints_showChange s json "Unset" name none
    exact hends

end SettingsTask
end CodeQuality
