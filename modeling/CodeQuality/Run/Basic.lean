import CodeQuality.CommandLine.Invocation
import CodeQuality.Text.Style

/-!
# Runs of the program

What a run finds around it, the commands it consists of, and what it leaves. A command goes on step
by step: it prints, makes calls and saves settings, and what it has done so far stays when it fails.
A run that fails says why on the error stream in the end, and its exit code tells whether the server
wanted other credentials, did not know what was asked for, or something else went wrong.
-/

namespace CodeQuality

/-- What a run finds around it. -/
structure Surroundings where
  /-- the server that the environment names -/
  server : Option String := none
  /-- the project that the environment names -/
  project : Option String := none
  /-- where the settings are kept, if there is such a place -/
  settingsPath : Option String
  files : FileTree := {}
  /-- for how many octets there is room in a file, if not for all -/
  room : Option Nat := none
  now : Instant
  coloured : Bool := false
  transport : Http.Transport
  /-- what the reader of TOML says about a document that it does not take for settings -/
  explain : String → String := fun _ => ""
  /-- the line for an event that is logged -/
  logLine : Event → String := fun event => event.message ++ "\n"
  /-- the script that completes command lines in a shell -/
  script : Shell → String := fun _ => ""

/-- Why a run has failed. -/
inductive RunError where
  | call (error : ApiError)
  | settings (error : SettingsError)
  | noSettingsPath
  | noServer
  | noProject
  | unconfirmed
  | unknownKey (key : String)
deriving DecidableEq, Repr

namespace RunError

/-- The message, followed by those of what lies behind the error. -/
def chain (explain : String → String) : RunError → String
  | call e => e.chain
  | settings e => e.chain explain
  | noSettingsPath => "Could not determine config directory"
  | noServer => "No server configured. Run 'sq config set url <URL>' or pass --server."
  | noProject => "No project specified. Use --project or run 'sq config set default_project <KEY>'."
  | unconfirmed =>
    "Deleting removes all analyses of the branch. Re-run with --yes to confirm."
  | unknownKey key =>
    "Unknown configuration key '" ++ key ++ "'. Valid keys: " ++
      ", ".intercalate (SettingKey.all.map SettingKey.name)

/-- The exit code of a run in which nothing went wrong. -/
def success : Nat := 0

/-- The exit code where the server wants other credentials. -/
def refused : Nat := 4

/-- The exit code where the server does not know what was asked for. -/
def unknown : Nat := 8

/-- The exit code for all other errors. -/
def failure : Nat := 1

/-- The exit code of a run that has failed. -/
def exitCode : RunError → Nat
  | call (.unauthorized _) => refused
  | call (.forbidden _) => refused
  | call (.notFound _) => unknown
  | _ => failure

end RunError

/-! ### Commands -/

/-- What a command has done so far. -/
structure Trail where
  /-- what has been printed -/
  output : String := ""
  files : FileTree
  journal : Journal := {}

/-- A command, which may fail halfway. -/
abbrev Command := ExceptT RunError (StateM Trail)

namespace Command

/-- Prints a text. -/
def print (text : String) : Command Unit := modify fun t => { t with output := t.output ++ text }

/-- Prints a value in JSON on lines of its own. -/
def printJson (v : Json.Value) : Command Unit := do
  print v.pretty
  print "\n"

/-- Goes on with a value, or fails if there is none. -/
def require {α : Type} (x : Except RunError α) : Command α := ExceptT.mk (pure x)

/-- Makes a call. -/
def call {α : Type} (action : Action α) : Command α := ExceptT.mk fun t =>
  let (result, journal) := action.run t.journal
  (result.mapError .call, { t with journal })

/-- Saves settings, for which there may be room for some octets only. -/
def save (settings : Settings) (path : String) (room : Option Nat) : Command Unit :=
  ExceptT.mk fun t =>
    let (result, files) := settings.save t.files path room
    (result.mapError .settings, { t with files })

end Command

/-! ### Outcomes -/

/-- What a run leaves. -/
structure Outcome extends Trail where
  /-- how the run has ended -/
  result : Except RunError Unit
  exitCode : Nat
  /-- what the run has written to its error stream -/
  errors : String

namespace Surroundings

/-- The line that a run with this error writes. -/
def errorLine (s : Surroundings) (e : RunError) : String :=
  ({ colour := some .red, bold := true } : Style).paint s.coloured "error:" ++ " " ++
    e.chain s.explain ++ "\n"

/-- What a run writes to its error stream about what has been logged, where nobody asks for remarks. -/
def logged (s : Surroundings) (j : Journal) : String := String.join (j.alarms.map s.logLine)

/-- Carries out a command. If it fails, it is said why. -/
def carryOut (s : Surroundings) (command : Command Unit) : Outcome :=
  match command.run { files := s.files } with
  | (.ok (), trail) =>
    { trail with result := .ok (), exitCode := RunError.success, errors := s.logged trail.journal }
  | (.error e, trail) =>
    { trail with
      result := .error e
      exitCode := e.exitCode
      errors := s.logged trail.journal ++ s.errorLine e }

/-- The settings that are kept. -/
def loadSettings (s : Surroundings) : Except RunError Settings :=
  match s.settingsPath with
  | none => .error .noSettingsPath
  | some path => (Settings.load s.files path).mapError .settings

end Surroundings

namespace Settings

/-- A client for the server that is set. -/
def client (s : Settings) (sink : Sink) (transport : Http.Transport) : Except RunError Client :=
  match s.url with
  | none => .error .noServer
  | some url => (Client.connect url s.clientOptions sink transport).mapError .call

end Settings

namespace GlobalOptions

/-- The settings with what the options put in their place: a server, and mock mode. -/
def override (o : GlobalOptions) (s : Settings) : Settings :=
  { s with
    url := (o.server.map normalizeServer).or s.url
    mockMode := s.mockMode || o.mock }

/-- The client for a run. -/
def client (o : GlobalOptions) (s : Settings) (transport : Http.Transport) :
    Except RunError Client :=
  (o.override s).client .collector transport

/-- The project that a run is about. -/
def projectOf (o : GlobalOptions) (s : Settings) : Except RunError String :=
  match o.project.or s.defaultProject with
  | some project => .ok project
  | none => .error .noProject

end GlobalOptions
end CodeQuality
