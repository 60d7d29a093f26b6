import CodeQuality.FileTree
import CodeQuality.Json.Printer
import CodeQuality.Client
import CodeQuality.Text.Blank
import CodeQuality.Text.Octets
import CodeQuality.Toml.Quoted
import CodeQuality.Toml.Reader

/-!
# Settings

The settings that outlive a run: the server, mock mode, the timeout and the project. They are read
and changed by key, and kept in a file as one table of a TOML document. Settings that the file does
not hold have their defaults, and what else the file holds does not count.
-/

namespace CodeQuality

/-- What is set for the server. -/
structure Settings where
  url : Option String := none
  mockMode : Bool := false
  /-- the timeout in seconds; zero is none -/
  timeoutSecs : Option UInt64 := none
  defaultProject : Option String := none
deriving DecidableEq, Repr

/-- The keys of the settings. -/
inductive SettingKey where
  | url
  | mockMode
  | timeoutSecs
  | defaultProject
deriving DecidableEq, Repr

namespace SettingKey

def name : SettingKey → String
  | url => "url"
  | mockMode => "mock_mode"
  | timeoutSecs => "timeout_secs"
  | defaultProject => "default_project"

/-- All keys in the order in which they are listed. -/
def all : List SettingKey := [url, mockMode, timeoutSecs, defaultProject]

/-- The key with this name. -/
def ofName? (name : String) : Option SettingKey := all.find? (·.name = name)

end SettingKey

/-- Why a text is no count. -/
inductive CountError where
  | empty
  | badDigit
  | tooLarge
deriving DecidableEq, Repr

namespace CountError

def message : CountError → String
  | empty => "cannot parse integer from empty string"
  | badDigit => "invalid digit found in string"
  | tooLarge => "number too large to fit in target type"

end CountError

/-- Why settings cannot be changed, read or written. -/
inductive SettingsError where
  | badFlag (value : String)
  | badCount (value : String) (cause : CountError)
  | unreadable (path : String) (cause : FileError)
  /-- the file holds octets that are no text -/
  | noText (path : String)
  /-- the document in the file is none of TOML, or holds a setting of the wrong kind -/
  | invalid (path document : String)
  | unwritable (cause : FileError)
  /-- the timeout does not fit into the file -/
  | timeoutTooLarge
deriving DecidableEq, Repr

namespace SettingsError

/-- The message, followed by that of the cause. What is wrong with a document is for the reader of
TOML to say, which is what `explain` does. -/
def chain (explain : String → String) : SettingsError → String
  | badFlag value =>
    "Invalid value for mock_mode: '" ++ value ++
      "' (use true or false): provided string was not \x60true\x60 or \x60false\x60"
  | badCount value cause => "Invalid value for timeout_secs: '" ++ value ++ "': " ++ cause.message
  | unreadable path cause => "Failed to read " ++ path ++ ": " ++ cause.message
  | noText path => "Failed to read " ++ path ++ ": stream did not contain valid UTF-8"
  | invalid path document => "Invalid configuration in " ++ path ++ ": " ++ explain document
  | unwritable cause => cause.message
  | timeoutTooLarge => "out-of-range value for u64 type"

end SettingsError

/-- A server's URL in the form in which it is kept: without blanks around it and slashes at its end,
and with a scheme. -/
def normalizeServer (url : String) : String :=
  let url := Text.trimEndWhile (· = '/') (Text.trim url)
  if Text.startsWith "https://" url || Text.startsWith "http://" url then url
  else "https://" ++ url

/-- The largest number of seconds that can be set. -/
def maxCount : Nat := 0xFFFFFFFFFFFFFFFF

/-- The count that digits spell behind `n`. -/
def readDigits (n : Nat) : List Char → Except CountError Nat
  | [] => .ok n
  | c :: cs =>
    if c.isDigit then
      let n := 10 * n + Text.digitValue c
      if maxCount < n then .error .tooLarge else readDigits n cs
    else .error .badDigit

/-- The count that a text spells; it may have a plus sign. -/
def readCount (s : String) : Except CountError UInt64 :=
  match s.toList with
  | [] => .error .empty
  | ['+'] => .error .badDigit
  | '+' :: cs => (readDigits 0 cs).map UInt64.ofNat
  | cs => (readDigits 0 cs).map UInt64.ofNat

/-- The truth value that a text spells. -/
def readFlag? : String → Option Bool
  | "true" => some true
  | "false" => some false
  | _ => none

namespace Settings

/-- The text of a setting, if it is set. -/
def get (s : Settings) : SettingKey → Option String
  | .url => s.url
  | .mockMode => some (toString s.mockMode)
  | .timeoutSecs => s.timeoutSecs.map fun n => toString n.toNat
  | .defaultProject => s.defaultProject

/-- The settings with one of them changed to what `value` spells. A timeout of zero is none. -/
def set (s : Settings) (key : SettingKey) (value : String) : Except SettingsError Settings :=
  match key with
  | .url => .ok { s with url := some (normalizeServer value) }
  | .mockMode =>
    match readFlag? value with
    | some b => .ok { s with mockMode := b }
    | none => .error (.badFlag value)
  | .timeoutSecs =>
    match readCount value with
    | .ok n => .ok { s with timeoutSecs := if n = 0 then none else some n }
    | .error cause => .error (.badCount value cause)
  | .defaultProject => .ok { s with defaultProject := some value }

/-- The settings with one of them as it is by default. -/
def unset (s : Settings) : SettingKey → Settings
  | .url => { s with url := none }
  | .mockMode => { s with mockMode := false }
  | .timeoutSecs => { s with timeoutSecs := none }
  | .defaultProject => { s with defaultProject := none }

/-- How a client behaves under these settings. -/
def clientOptions (s : Settings) : ClientOptions :=
  { mockMode := s.mockMode
    timeout := (s.timeoutSecs.map UInt64.toNat).filter (0 < ·) }

/-! ### In a file -/

/-- A setting that is a text. -/
def textOf? (v : Toml.Value) : Option String :=
  match v with
  | .text s => some s
  | _ => none

/-- A setting that is a truth value. -/
def flagOf? (v : Toml.Value) : Option Bool :=
  match v with
  | .flag b => some b
  | _ => none

/-- A setting that is a count. -/
def countOf? (v : Toml.Value) : Option UInt64 :=
  match v with
  | .integer n => if 0 ≤ n then some (UInt64.ofNat n.toNat) else none
  | _ => none

/-- What `read` makes of a value if there is one. -/
def optional {α : Type} (read : Toml.Value → Option α) (v : Option Toml.Value) :
    Option (Option α) :=
  match v with
  | some v => (read v).map some
  | none => some none

/-- The settings by the values of their keys, each of which may be absent. -/
def ofValues (url mockMode timeoutSecs defaultProject : Option Toml.Value) : Option Settings := do
  let url ← optional textOf? url
  let mockMode ← optional flagOf? mockMode
  let timeoutSecs ← optional countOf? timeoutSecs
  let defaultProject ← optional textOf? defaultProject
  return { url, mockMode := mockMode.getD false, timeoutSecs, defaultProject }

/-- The settings that a value holds: a table has them by key, a list in their order. A moment is
seen as a table with one key that is none of theirs. -/
def ofValue : Toml.Value → Option Settings
  | .table entries =>
    let get key := (Toml.Value.table entries).get? key
    ofValues (get "url") (get "mock_mode") (get "timeout_secs") (get "default_project")
  | .list vs => ofValues vs[0]? vs[1]? vs[2]? vs[3]?
  | .moment => ofValues none none none none
  | .text _ | .integer _ | .flag _ | .real => none

/-- The settings that a TOML document holds. -/
def ofToml? (document : String) : Option Settings := do
  match (← Toml.Value.read? document).get? "server" with
  | none => some {}
  | some v => ofValue v

/-- A line of the document that holds the settings. -/
def tomlLine (key value : String) : String := key ++ " = " ++ value ++ "\n"

/-- A text as the document holds it. -/
def tomlText (s : String) : String := String.ofList (Toml.Quoted.encode s.toList)

/-- The largest timeout that the document can hold. -/
def maxTimeout : Nat := 0x7FFFFFFFFFFFFFFF

/-- The settings as the lines of a TOML table. -/
def toLines (s : Settings) : Except SettingsError String :=
  if (s.timeoutSecs.any fun n => maxTimeout < n.toNat) then .error .timeoutTooLarge
  else
    .ok <| (s.url.map fun u => tomlLine "url" (tomlText u)).getD "" ++
      tomlLine "mock_mode" (toString s.mockMode) ++
      (s.timeoutSecs.map fun n => tomlLine "timeout_secs" (toString n.toNat)).getD "" ++
      (s.defaultProject.map fun p => tomlLine "default_project" (tomlText p)).getD ""

/-- The TOML document that holds the settings. -/
def toToml (s : Settings) : Except SettingsError String := s.toLines.map ("[server]\n" ++ ·)

/-- The settings as the members of a JSON object. -/
def toMembers (s : Settings) : List (String × Json.Value) :=
  (s.url.map fun u => ("url", Json.Value.text u)).toList ++
    [("mock_mode", .flag s.mockMode)] ++
    (s.timeoutSecs.map fun n => ("timeout_secs", Json.Value.ofNat n.toNat)).toList ++
    (s.defaultProject.map fun p => ("default_project", Json.Value.text p)).toList

/-- The settings as a JSON value. -/
def toJson (s : Settings) : Json.Value := .object [("server", .object s.toMembers)]

/-- The settings that a file holds; a file that is not there holds the defaults. -/
def load (files : FileTree) (path : String) : Except SettingsError Settings :=
  match FilePath.ofString? path with
  | none => .ok {}
  | some target =>
    if files.has target then
      match files.read target with
      | .error cause => .error (.unreadable path cause)
      | .ok octets =>
        match Text.ofOctets? octets with
        | none => .error (.noText path)
        | some cs =>
          let document := String.ofList cs
          match ofToml? document with
          | some s => .ok s
          | none => .error (.invalid path document)
    else .ok {}

/-- The files with the settings in one of them, for which there may be room for some octets only.
The directories that lead to it are made first, also if the settings cannot be written then. -/
def save (s : Settings) (files : FileTree) (path : String) (room : Option Nat := none) :
    Except SettingsError Unit × FileTree :=
  match FilePath.ofString? path with
  | none => (s.toToml.bind fun _ => .error (.unwritable .notFound), files)
  | some target =>
    match files.makeDirectories target.parent with
    | (.error cause, made) => (.error (.unwritable cause), made)
    | (.ok (), made) =>
      match s.toToml with
      | .error e => (.error e, made)
      | .ok document =>
        let (result, written) := made.write target (Text.octets document.toList) room
        (result.mapError .unwritable, written)

/-- What `name` leads to in a directory. -/
def joinPath (directory name : String) : String :=
  if directory.toList.getLast? = some '/' then directory ++ name else directory ++ "/" ++ name

/-- Where the settings are kept: at the path that is given for them, or else below the directory for
settings, which has to be absolute, or else below the home directory. -/
def path? (given configHome home : Option String) : Option String :=
  match given with
  | some path => some path
  | none => do
    let home ← home.filter (· ≠ "")
    let directory := (configHome.filter (Text.startsWith "/")).getD (joinPath home ".config")
    return joinPath directory "sq/config.toml"

end Settings
end CodeQuality
