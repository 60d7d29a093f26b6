import CodeQuality.Proofs.Run.Invocation

/-!
# The settings over many runs

The settings outlive the runs of the program only in their file, so what is found there after any
number of runs is what the successful changes among them have made of it. A run that changes nothing
leaves every file as it was, unless it is a change for which there was no room.

* `Turn` — one run among others.
* `Turn.change?` — the setting that a run changes, if it does.
* `Turn.kept_or_changed` — what any run does, whatever has been run before.
-/

namespace CodeQuality

/-! ### One run -/

namespace Invocation

variable {s : Surroundings} {i : Invocation} {place name : String} {value : Option String}

/-- The setting that an invocation changes, and what it is set to. -/
def change? (i : Invocation) : Option (String × Option String) :=
  match i.task with
  | .settings task => task.change?
  | .server _ | .completion _ | .version => none

theorem change?_of_ne (h : ∀ task, i.task ≠ .settings task) : i.change? = none := by
  unfold change?
  split
  · next task htask => exact absurd htask (h task)
  all_goals rfl

/-- An invocation either is about the settings or has nothing to do with the files. -/
theorem settings_or_ne (i : Invocation) :
    (∃ task, i.task = .settings task) ∨ ∀ task, i.task ≠ .settings task := by
  cases i.task with
  | settings task => exact .inl ⟨task, rfl⟩
  | server | completion | version => exact .inr nofun

/-- A run that changes no setting leaves the files alone, unless it has tried to save a change. -/
theorem unchanged_of_run (h : i.change? = none ∨ (i.run s).exitCode ≠ RunError.success) :
    (i.run s).files = s.files ∨
      ∃ task name value place key old new, i.task = .settings task ∧
        task.Attempts s name value place key old new ∧
        (s.files.Kept place (i.run s).files ∨
          ∃ n, s.room = some n ∧ new.Cut place n s.files (i.run s).files) := by
  obtain ⟨task, htask⟩ | hne := i.settings_or_ne
  · have hends := task.ends_run s i.options.json
    rw [change?, htask] at h
    rw [run_of_settings htask] at h ⊢
    generalize s.carryOut (task.run s i.options.json) = o at h hends ⊢
    cases hends with
    | shown | failed => exact .inl rfl
    | unsaved hattempt hsave =>
      exact .inr ⟨task, _, _, _, _, _, _, htask, hattempt, Settings.kept_or_cut_of_save hsave⟩
    | saved hattempt =>
      obtain h | h := h
      · nomatch hattempt.asked.symm.trans h
      · exact absurd rfl h
  · exact .inl (files_run_of_ne hne)

/-- A run that changes a setting and succeeds has saved this change. -/
theorem saved_of_run (hplace : s.settingsPath = some place) (hchange : i.change? = some (name, value))
    (h : (i.run s).exitCode = RunError.success) :
    ∃ key old new, SettingKey.ofName? name = some key ∧ Settings.load s.files place = .ok old ∧
      old.changed key value = .ok new ∧ new.save s.files place s.room = (.ok (), (i.run s).files) := by
  obtain ⟨task, htask⟩ | hne := i.settings_or_ne
  · have hends := task.ends_run s i.options.json
    rw [change?, htask] at hchange
    rw [run_of_settings htask] at h ⊢
    generalize s.carryOut (task.run s i.options.json) = o at h hends ⊢
    cases hends with
    | shown hnone => nomatch hnone.symm.trans hchange
    | failed hfails => nomatch hfails.exitCode.symm.trans h
    | unsaved hattempt hsave => nomatch h
    | saved hattempt hsave =>
      cases hattempt.asked.symm.trans hchange
      cases hattempt.placed.symm.trans hplace
      exact ⟨_, _, _, hattempt.known, hattempt.loaded, hattempt.accepted, hsave⟩
  · rw [change?_of_ne hne] at hchange
    nomatch hchange

theorem tidy_run (i : Invocation) (hplace : s.settingsPath = some place)
    (htidy : s.files.Tidy place) : (i.run s).files.Tidy place := by
  obtain ⟨task, htask⟩ | hne := i.settings_or_ne
  · have hends := task.ends_run s i.options.json
    rw [run_of_settings htask]
    generalize s.carryOut (task.run s i.options.json) = o at hends ⊢
    cases hends with
    | shown | failed => exact htidy
    | @unsaved _ _ _ _ _ new _ _ hattempt hsave | @saved _ _ _ _ _ _ new _ hattempt hsave =>
      cases hattempt.placed.symm.trans hplace
      have htidy := Settings.tidy_save htidy new s.room
      rwa [hsave] at htidy
  · rwa [files_run_of_ne hne]

end Invocation

/-- A run among others: its arguments and what is around it. The settings and the files it finds are
those that the runs before it have left. -/
structure Turn where
  arguments : List String
  around : Surroundings

namespace Turn

variable {path : String} {files : FileTree} {turn : Turn}

/-- What the arguments ask for, if they are understood. -/
def invocation? (turn : Turn) : Option Invocation :=
  (Invocation.read turn.around.server turn.around.project turn.arguments).toOption

/-- What the run finds around it. -/
def surroundings (turn : Turn) (path : String) (files : FileTree) : Surroundings :=
  { turn.around with settingsPath := some path, files }

/-- The outcome of the run, if its arguments are understood. -/
def outcome? (turn : Turn) (path : String) (files : FileTree) : Option Outcome :=
  ((turn.surroundings path files).run turn.arguments).toOption

/-- The files after the run. -/
def leave (turn : Turn) (path : String) (files : FileTree) : FileTree :=
  ((turn.outcome? path files).map (·.files)).getD files

/-- The files after several runs. -/
def filesAfter (path : String) (files : FileTree) (turns : List Turn) : FileTree :=
  turns.foldl (fun files turn => turn.leave path files) files

/-- The setting that the run changes and what it is set to, if it changes one and succeeds. -/
def change? (turn : Turn) (path : String) (files : FileTree) : Option (String × Option String) := do
  let i ← turn.invocation?
  let outcome ← turn.outcome? path files
  if outcome.exitCode = RunError.success then i.change? else none

/-- Has the run accepted a change of a setting, which makes `new` of the settings `old`, and tried
to save it? -/
def Attempts (turn : Turn) (path : String) (files : FileTree) (name : String)
    (value : Option String) (key : SettingKey) (old new : Settings) : Prop :=
  ∃ o task, turn.invocation? = some ⟨o, .settings task⟩ ∧
    task.Attempts (turn.surroundings path files) name value path key old new

/-- Do all of the runs leave the files as they are? -/
def Quiet (path : String) (files : FileTree) : List Turn → Prop
  | [] => True
  | turn :: turns => files.Kept path (turn.leave path files) ∧ Quiet path (turn.leave path files) turns

theorem outcome?_eq (turn : Turn) (path : String) (files : FileTree) :
    turn.outcome? path files =
      turn.invocation?.map (Invocation.run (turn.surroundings path files)) := by
  unfold outcome? invocation? Surroundings.run
  dsimp only [surroundings]
  cases Invocation.read turn.around.server turn.around.project turn.arguments <;> rfl

theorem leave_eq (turn : Turn) (path : String) (files : FileTree) :
    turn.leave path files =
      match turn.invocation? with
      | none => files
      | some i => (i.run (turn.surroundings path files)).files := by
  unfold leave
  rw [outcome?_eq]
  cases turn.invocation? <;> rfl

theorem change?_eq (turn : Turn) (path : String) (files : FileTree) :
    turn.change? path files =
      match turn.invocation? with
      | none => none
      | some i =>
        if (i.run (turn.surroundings path files)).exitCode = RunError.success then i.change?
        else none := by
  unfold change?
  rw [outcome?_eq]
  cases turn.invocation? <;> rfl

/-- A run that changes no setting leaves the files alone, unless it has tried to save a change. -/
theorem unchanged_of_change?_eq_none (h : turn.change? path files = none) :
    turn.leave path files = files ∨ ∃ name value key old new,
      turn.Attempts path files name value key old new ∧
      (files.Kept path (turn.leave path files) ∨ ∃ n, turn.around.room = some n ∧
        new.Cut path n files (turn.leave path files)) := by
  rw [change?_eq] at h
  rw [leave_eq]
  cases hread : turn.invocation? with
  | none => exact .inl rfl
  | some i =>
    have hfailed : i.change? = none ∨
        (i.run (turn.surroundings path files)).exitCode ≠ RunError.success := by
      rw [hread] at h
      dsimp only at h
      split at h
      · exact .inl h
      · next hfailed => exact .inr hfailed
    obtain hsame | ⟨task, name, value, place, key, old, new, htask, hattempt, hleft⟩ :=
      Invocation.unchanged_of_run hfailed
    · exact .inl hsame
    · obtain rfl : path = place := Option.some.inj hattempt.placed
      refine .inr ⟨name, value, key, old, new, ⟨i.options, task, ?_, hattempt⟩, hleft⟩
      rw [hread, ← htask]

theorem saved_of_change? {name : String} {value : Option String}
    (h : turn.change? path files = some (name, value)) :
    ∃ key old new, SettingKey.ofName? name = some key ∧ Settings.load files path = .ok old ∧
      old.changed key value = .ok new ∧
      new.save files path turn.around.room = (.ok (), turn.leave path files) := by
  rw [change?_eq] at h
  rw [leave_eq]
  cases hread : turn.invocation? with
  | none => rw [hread] at h; nomatch h
  | some i =>
    rw [hread] at h
    dsimp only at h
    split at h
    · next hsuccess =>
      exact Invocation.saved_of_run (s := turn.surroundings path files) rfl h hsuccess
    · nomatch h

theorem tidy_leave (turn : Turn) (htidy : files.Tidy path) : (turn.leave path files).Tidy path := by
  rw [leave_eq]
  cases turn.invocation? with
  | none => exact htidy
  | some i => exact i.tidy_run (s := turn.surroundings path files) rfl htidy

/-! ### Many runs -/

theorem tidy_filesAfter (htidy : files.Tidy path) (turns : List Turn) :
    (filesAfter path files turns).Tidy path := by
  induction turns generalizing files with
  | nil => exact htidy
  | cons turn turns ih => exact ih (turn.tidy_leave htidy)

/-- Runs that leave the files as they are leave everything where it is found. -/
theorem find_of_quiet {target : FilePath} {node : FileNode} {turns : List Turn}
    (hquiet : Quiet path files turns) (hfind : files.find target = .ok node) :
    (filesAfter path files turns).find target = .ok node := by
  induction turns generalizing files with
  | nil => exact hfind
  | cons turn turns ih =>
    obtain ⟨hkept, hquiet⟩ := hquiet
    exact ih hquiet (hkept.present target node hfind)

/-- Settings that have been saved are found until they are changed. -/
theorem load_of_quiet {s : Settings} {before : FileTree} {room : Option Nat} {turns : List Turn}
    (hsave : s.save before path room = (.ok (), files)) (hquiet : Quiet path files turns) :
    Settings.load (filesAfter path files turns) path = .ok s := by
  obtain ⟨target, document, hpath, hdocument, hfind⟩ := Settings.find_of_save hsave
  exact Settings.load_of_find hpath hdocument (find_of_quiet hquiet hfind)

/-- Whatever has been run before, a run that changes no setting leaves everything as it was; only if
it has accepted a change and tried to save it, directories may have been made, and the file may hold
the beginning of its new document if there was no room for all of it. A run that changes a setting
leaves the settings that it has found with this one changed as it says: all others are the same, and
until the file is changed again the new value is shown to whoever asks for it, or nothing if it is
not set. -/
theorem kept_or_changed (path : String) (files : FileTree) (earlier : List Turn) (turn : Turn) :
    let before := filesAfter path files earlier
    let after := turn.leave path before
    (files.Tidy path → before.Tidy path) ∧
      match turn.change? path before with
      | none => after = before ∨ ∃ name value key old new,
        turn.Attempts path before name value key old new ∧
        (before.Kept path after ∨ ∃ n, turn.around.room = some n ∧ new.Cut path n before after)
      | some (name, value) => ∃ key old new, SettingKey.ofName? name = some key ∧
        Settings.load before path = .ok old ∧ old.changed key value = .ok new ∧
        Settings.load after path = .ok new ∧
        (∀ other, other ≠ key → new.get other = old.get other) ∧
        (value = none → new.get key = ({} : Settings).get key) ∧
        ∀ (later : List Turn) (reader : Turn) (o : GlobalOptions), Quiet path after later →
          reader.invocation? = some ⟨o, .settings (.get name)⟩ →
          ∃ outcome, reader.outcome? path (filesAfter path after later) = some outcome ∧
            outcome.exitCode = RunError.success ∧
            outcome.output = SettingsTask.valueText o.json name (new.get key) := by
  intro before after
  refine ⟨fun htidy => tidy_filesAfter htidy earlier, ?_⟩
  split
  · next hnone => exact unchanged_of_change?_eq_none hnone
  · next name value hchange =>
    obtain ⟨key, old, new, hkey, hload, hnew, hsave⟩ := saved_of_change? hchange
    refine ⟨key, old, new, hkey, hload, hnew, Settings.load_of_save hsave,
      fun _ => Settings.get_changed_of_ne hnew, ?_, ?_⟩
    · rintro rfl
      exact Settings.get_changed_none hnew
    · intro later reader o hquiet hreader
      have hloaded : (reader.surroundings path (filesAfter path after later)).loadSettings = .ok new :=
        mapError_ok_iff.mpr (load_of_quiet hsave hquiet)
      have hrun := SettingsTask.carryOut_get o.json hkey hloaded
      refine ⟨_, by rw [outcome?_eq, hreader]; rfl, ?_, ?_⟩
      · exact congrArg (·.exitCode) hrun
      · exact congrArg (·.output) hrun

/-- A change that is rejected leaves what has been set before. -/
theorem kept_or_changed_rejected :
    let around : Surroundings :=
      { settingsPath := none, now := ⟨0, 0⟩, transport := fun _ => .unreachable }
    let accepted : Turn := ⟨["config", "set", "url", "host/"], around⟩
    let rejected : Turn := ⟨["config", "set", "mock_mode", "yes"], around⟩
    let reader : Turn := ⟨["config", "get", "url"], around⟩
    ∃ outcome, reader.outcome? "sq/config.toml"
        (filesAfter "sq/config.toml" {} [accepted, rejected]) = some outcome ∧
      outcome.exitCode = RunError.success ∧ outcome.output = "https://host\n" := by
  intro around accepted rejected reader
  have hchange : accepted.change? "sq/config.toml" {} = some ("url", some "host/") := by
    decide +kernel
  have hrejected : rejected.leave "sq/config.toml" (accepted.leave "sq/config.toml" {}) =
      accepted.leave "sq/config.toml" {} := by decide +kernel
  have hreader : reader.invocation? = some ⟨{}, .settings (.get "url")⟩ := by decide +kernel
  have hquiet : Quiet "sq/config.toml" (accepted.leave "sq/config.toml" {}) [rejected] := by
    refine ⟨?_, trivial⟩
    rw [hrejected]
    exact .refl _ _
  have hshown := (kept_or_changed "sq/config.toml" {} [] accepted).2
  clear_value around accepted rejected reader
  dsimp only [filesAfter, List.foldl] at hshown ⊢
  rw [hchange] at hshown
  obtain ⟨key, old, new, hkey, hload, hset, -, -, -, hshown⟩ := hshown
  obtain rfl : SettingKey.url = key := Option.some.inj hkey
  obtain rfl : ({} : Settings) = old := Except.ok.inj hload
  obtain rfl := Except.ok.inj hset
  obtain ⟨outcome, houtcome, hcode, houtput⟩ := hshown [rejected] reader {} hquiet hreader
  exact ⟨outcome, houtcome, hcode, houtput.trans (by decide +kernel)⟩

/-- What is missing can be there after a change that has failed, behind a directory that was made
for it, and a file can be cut short. -/
theorem not_kept_of_failed :
    (¬ ∀ (path : String) (files : FileTree) (turn : Turn) (target : FilePath),
      turn.around.room = none → turn.change? path files = none →
      FilePath.ofString? path = some target → files.has target = false →
      (turn.leave path files).has target = false) ∧
    ¬ ∀ (path : String) (files : FileTree) (turn : Turn) (place : FilePlace) (octets : List UInt8),
      turn.change? path files = none → files.fileAt? place = some octets →
      (turn.leave path files).fileAt? place = some octets := by
  let around : Surroundings :=
    { settingsPath := none, now := ⟨0, 0⟩, transport := fun _ => .unreachable }
  let files : FileTree := ⟨[(["config.toml"], .file (Text.octets "[server]\n".toList))]⟩
  constructor
  · intro h
    let large : Turn := ⟨["config", "set", "timeout_secs", "9223372036854775808"], around⟩
    have habsent := h "a/../config.toml" files large ⟨["a", "..", "config.toml"], .nothing⟩ rfl
      (by decide +kernel) (by decide +kernel) (by decide +kernel)
    exact absurd habsent (by decide +kernel)
  · intro h
    let cramped : Turn := ⟨["config", "set", "url", "host"], { around with room := some 3 }⟩
    have hsame := h "config.toml" files cramped ["config.toml"] _ (by decide +kernel) rfl
    exact absurd hsame (by decide +kernel)

end Turn
end CodeQuality
