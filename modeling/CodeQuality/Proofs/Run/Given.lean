import CodeQuality.Proofs.Run.Server
import CodeQuality.Proofs.Run.Settings
import CodeQuality.Run

/-!
# A server that is given and a server that is set

A server can be named on the line, for one run, or set, for all runs to come. Both come to the same:
the client is the same one, or fails for the same reason, and every task asks, shows and records the
same. All other settings count in the same way, and no run about a server changes them.

* `GlobalOptions.client_override` — what a client is made of.
* `ServerTask.run_congr` — runs with one client and one project.
* `GlobalOptions.client_of_set` — the server that is given and the server that is set.
-/

namespace CodeQuality

variable {s s' : Surroundings} {o o' : GlobalOptions} {c c' : Settings}

namespace GlobalOptions

/-- What a client has to be that is built with these settings, this server and this switch. -/
structure Builds (c : Settings) (x : String) (mock : Bool)
    (built : Except RunError Client) : Prop where
  fails : ∀ e, Url.read (normalizeServer x) = .error e → built = .error (.call (.invalidUrl e))
  succeeds : ∀ base, Url.read (normalizeServer x) = .ok base → ∃ client, built = .ok client ∧
    client.baseUrl = base ∧ (client.options.mockMode = true ↔ c.mockMode = true ∨ mock = true) ∧
    ∀ n, client.options.timeout = some n ↔ ∃ count, c.timeoutSecs = some count ∧
      count.toNat = n ∧ n ≠ 0

theorem timeout_eq_some_iff {n : Nat} : c.clientOptions.timeout = some n ↔
    ∃ count, c.timeoutSecs = some count ∧ count.toNat = n ∧ n ≠ 0 := by
  unfold Settings.clientOptions
  rw [Option.filter_eq_some_iff, Option.map_eq_some_iff]
  constructor
  · intro h
    obtain ⟨⟨count, hcount, hn⟩, hpos⟩ := h
    exact ⟨count, hcount, hn, Nat.ne_of_gt (of_decide_eq_true hpos)⟩
  · intro h
    obtain ⟨count, hcount, hn, hne⟩ := h
    exact ⟨⟨count, hcount, hn⟩, decide_eq_true (Nat.pos_of_ne_zero hne)⟩

/-- A client is built for the server that is given, and all else comes from the settings. -/
theorem builds_client (o : GlobalOptions) {x : String} (hserver : o.server = some x)
    (c : Settings) (transport : Http.Transport) : Builds c x o.mock (o.client c transport) := by
  have hclient := ServerTask.client_cases o c transport
  simp only [hserver, Option.map_some, Option.some_or] at hclient
  constructor
  case fails =>
    intro e he
    rw [he] at hclient
    exact hclient
  case succeeds =>
    intro base hbase
    rw [hbase] at hclient
    refine ⟨_, hclient, rfl, ?_, fun n => timeout_eq_some_iff⟩
    show (o.override c).mockMode = true ↔ c.mockMode = true ∨ o.mock = true
    simp only [override, Bool.or_eq_true]

/-- Settings with the server that is given are those with the server that is set. -/
theorem client_override {x : String} (h : c.set .url x = .ok c') (o : GlobalOptions)
    (transport : Http.Transport) :
    ({ o with server := some x } : GlobalOptions).client c transport =
      ({ o with server := none } : GlobalOptions).client c' transport := by
  obtain rfl := Except.ok.inj h
  rfl

end GlobalOptions

namespace ServerTask

/-- A task sees of the options and the settings no more than the project. -/
theorem ask_congr (hproject : o.projectOf c = o'.projectOf c') (task : ServerTask) (d : Display)
    (client : Client) : task.ask o c d client = task.ask o' c' d client := by
  cases task with
  | listBranches | deleteBranch | renameBranch | measures | measuresAndMeta =>
    simp only [ask, hproject]
  | projectMeasures => rfl

/-- Runs that have the same client and the same project do the same. -/
theorem run_congr (hload : s.loadSettings = .ok c) (hload' : s'.loadSettings = .ok c')
    (hclient : o.client c s.transport = o'.client c' s'.transport)
    (hproject : o.projectOf c = o'.projectOf c')
    (hdisplay : (⟨o.json, s.coloured, s.now⟩ : Display) = ⟨o'.json, s'.coloured, s'.now⟩)
    (task : ServerTask) : task.run s o = task.run s' o' := by
  unfold run
  rw [hload, hload', hdisplay, Command.require_ok_bind, Command.require_ok_bind, hclient]
  cases o'.client c' s'.transport with
  | error e => rfl
  | ok client => rw [Command.require_ok_bind, Command.require_ok_bind, ask_congr hproject]

/-- A task does the same whatever the files are, once it has its settings. -/
theorem run_with_files (task : ServerTask) (t : Trail) (files : FileTree) :
    (task.run s o).run { t with files } =
      (((task.run s o).run t).1, { ((task.run s o).run t).2 with files }) := by
  have hrun := task.run_of_prepare (s := s) (o := o) t
  have hother := task.run_of_prepare (s := s) (o := o) { t with files }
  cases hprepared : task.prepare s o with
  | error e =>
    rw [hprepared] at hrun hother
    rw [hrun, hother]
  | ok prepared =>
    obtain ⟨client, op⟩ := prepared
    rw [hprepared] at hrun hother
    dsimp only at hrun hother
    rw [Command.run_bind, Command.run_call] at hrun hother
    rw [hrun, hother]
    cases ((op.perform client).run t.journal).1 with
    | error e => rfl
    | ok a =>
      dsimp only [Except.mapError]
      rw [Display.prints_print, Display.prints_print]

/-- Runs that do the same come to the same, apart from the files. -/
theorem carryOut_congr {task : ServerTask} {settingsPath : Option String} {files : FileTree}
    (hrun : task.run s o = task.run { s with settingsPath, files } o') :
    { s.carryOut (task.run s o) with files } =
      ({ s with settingsPath, files } : Surroundings).carryOut
        (task.run { s with settingsPath, files } o') := by
  have hfiles := run_with_files (s := s) (o := o) task { files := s.files } files
  unfold Surroundings.carryOut
  rw [← hrun]
  dsimp only at hfiles ⊢
  rw [hfiles]
  rcases (task.run s o).run { files := s.files } with ⟨result, t⟩
  cases result <;> rfl

end ServerTask

namespace GlobalOptions

/-- A server that is set and saved leads to the same client as one that is given: to a client for
this server, with mock mode and timeout as they are set, or to the same failure. So does every run,
which tells and records the same and leaves the settings as they are. -/
theorem client_of_set {x path : String} {files files' : FileTree} {room : Option Nat}
    (hset : c.set .url x = .ok c') (hsave : c'.save files path room = (.ok (), files'))
    (o : GlobalOptions) :
    ∃ loaded, Settings.load files' path = .ok loaded ∧
      loaded = { c with url := some (normalizeServer x) } ∧
      (∀ transport,
        ({ o with server := some x } : GlobalOptions).client c transport =
          ({ o with server := none } : GlobalOptions).client loaded transport ∧
        Builds c x o.mock (({ o with server := some x } : GlobalOptions).client c transport)) ∧
      ∀ (s : Surroundings) (task : ServerTask), s.loadSettings = .ok c →
        let given := Invocation.run s ⟨{ o with server := some x }, .server task⟩
        let stored := Invocation.run { s with settingsPath := some path, files := files' }
          ⟨{ o with server := none }, .server task⟩
        { given with files := stored.files } = stored ∧
          ({ s with files := given.files } : Surroundings).loadSettings = .ok c ∧
          Settings.load stored.files path = .ok loaded := by
  have hload := Settings.load_of_save hsave
  have hkept : c' = { c with url := some (normalizeServer x) } := (Except.ok.inj hset).symm
  refine ⟨c', hload, hkept, fun transport => ⟨client_override hset o transport,
    builds_client { o with server := some x } rfl c transport⟩, ?_⟩
  intro s task hc given stored
  have hstored : ({ s with settingsPath := some path, files := files' } :
      Surroundings).loadSettings = .ok c' := by
    rw [Surroundings.loadSettings]
    exact mapError_ok_iff.mpr hload
  have hproject : ({ o with server := some x } : GlobalOptions).projectOf c =
      ({ o with server := none } : GlobalOptions).projectOf c' := by
    rw [hkept]
    rfl
  have hrun := ServerTask.run_congr hc hstored (client_override hset o s.transport) hproject rfl
    task
  have hfiles : stored.files = files' := ServerTask.files_carryOut _ _ task
  have hgiven : given.files = s.files := ServerTask.files_carryOut _ _ task
  rw [hfiles, hgiven]
  exact ⟨ServerTask.carryOut_congr hrun, hc, hload⟩

/-- A server that is named without a scheme and with a slash too many is the same one either way. -/
theorem client_of_set_bare :
    let c : Settings := { timeoutSecs := some 30, defaultProject := some "demo" }
    let o : GlobalOptions := { mock := true }
    let files := (c.save {} "sq/config.toml").2
    let c' : Settings := { c with url := some "https://sonar.example.com" }
    let files' := (c'.save files "sq/config.toml").2
    ∀ transport, ∃ client,
      ({ o with server := some " sonar.example.com/ " } : GlobalOptions).client c transport =
        .ok client ∧
      (∃ loaded, Settings.load files' "sq/config.toml" = .ok loaded ∧
        ({ o with server := none } : GlobalOptions).client loaded transport = .ok client) ∧
      client.options.mockMode = true ∧ client.options.timeout = some 30 := by
  intro c o files c' files' transport
  have hset : c.set .url " sonar.example.com/ " = .ok c' :=
    toOption_eq_some_iff.mp (by decide +kernel)
  have hsave : c'.save files "sq/config.toml" = (.ok (), files') := rfl
  have hread : (Url.read (normalizeServer " sonar.example.com/ ")).toOption.isSome = true := by
    decide +kernel
  obtain ⟨base, hbase⟩ := Option.isSome_iff_exists.mp hread
  obtain ⟨loaded, hload, -, hclient, -⟩ := client_of_set hset hsave o
  obtain ⟨hsame, hbuilds⟩ := hclient transport
  obtain ⟨client, hmade, -, hmock, htimeout⟩ := hbuilds.succeeds base
    (toOption_eq_some_iff.mp hbase)
  refine ⟨client, hmade, ⟨loaded, hload, hsame.symm.trans hmade⟩, ?_, ?_⟩
  · exact hmock.mpr (.inr rfl)
  · exact (htimeout 30).mpr ⟨30, rfl, rfl, by decide⟩

end GlobalOptions
end CodeQuality
