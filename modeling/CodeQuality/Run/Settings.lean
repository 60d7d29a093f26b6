import CodeQuality.Run.Server

/-!
# Tasks for the settings

Showing and changing the settings that are kept. A change is shown only after it has been saved.
-/

namespace CodeQuality
namespace SettingsTask

/-- The key that is called `name`. -/
def keyOf (name : String) : Except RunError SettingKey :=
  match SettingKey.ofName? name with
  | some key => .ok key
  | none => .error (.unknownKey name)

/-- Shows the value of a setting, or nothing if it is not set. -/
def showSetting (s : Surroundings) (json : Bool) (name : String) : Command Unit := do
  let key ← Command.require (keyOf name)
  let settings ← Command.require s.loadSettings
  let value := settings.get key
  if json then
    Command.printJson
      (.object [("key", .text name), ("value", (value.map Json.Value.text).getD .null)])
  else (value.map (· ++ "\n")).toList.forM Command.print

/-- The line for a setting. -/
def settingLine (coloured : Bool) (settings : Settings) (key : SettingKey) : String :=
  "  " ++ Style.cyan.paint coloured key.name ++ ": " ++ (settings.get key).getD "-" ++ "\n"

/-- Shows all settings. -/
def showAll (s : Surroundings) (json : Bool) : Command Unit := do
  let settings ← Command.require s.loadSettings
  if json then Command.printJson settings.toJson
  else
    Command.print "\n"
    Command.print (Style.emphatic.paint s.coloured "Server Configuration" ++ "\n")
    Command.print (String.ofList (List.replicate 50 '-') ++ "\n")
    SettingKey.all.forM fun key => Command.print (settingLine s.coloured settings key)
    Command.print "\n"

/-- The path of the settings, if there is a place for them. -/
def placeOf (s : Surroundings) : Except RunError String :=
  match s.settingsPath with
  | some place => .ok place
  | none => .error .noSettingsPath

/-- Shows where the settings are kept. -/
def showPath (s : Surroundings) (json : Bool) : Command Unit := do
  let place ← Command.require (placeOf s)
  if json then
    let there := (FilePath.ofString? place).any s.files.has
    Command.printJson (.object [("exists", .flag there), ("path", .text place)])
  else Command.print (place ++ "\n")

/-- Shows that a setting has been changed. -/
def showChange (s : Surroundings) (json : Bool) (verb name : String) (value : Option String) :
    Command Unit :=
  if json then
    Command.printJson (.object ([("key", .text name), ("success", .flag true)] ++
      (value.map fun v => ("value", Json.Value.text v)).toList))
  else
    Command.print (Style.green.paint s.coloured "✓" ++ " " ++ verb ++ " " ++
      Style.cyan.paint s.coloured name ++ (value.map (" = " ++ ·)).getD "" ++ "\n")

/-- The settings that are kept with a change to one of them, and the key of that one. -/
def next (s : Surroundings) (name : String)
    (change : SettingKey → Settings → Except SettingsError Settings) :
    Except RunError (SettingKey × Settings) := do
  let settings ← s.loadSettings
  let key ← keyOf name
  return (key, ← (change key settings).mapError .settings)

/-- Makes a change to the settings that are kept, and goes on when it has been saved. -/
def update (s : Surroundings) (name : String)
    (change : SettingKey → Settings → Except SettingsError Settings)
    (shown : SettingKey → Settings → Command Unit) : Command Unit := do
  let (key, settings) ← Command.require (next s name change)
  let place ← Command.require (placeOf s)
  Command.save settings place s.room
  shown key settings

/-- The command for a task. -/
def run (s : Surroundings) (json : Bool) : SettingsTask → Command Unit
  | get name => showSetting s json name
  | list => showAll s json
  | path => showPath s json
  | set name value =>
    update s name (fun key settings => settings.set key value) fun key settings =>
      showChange s json "Set" name (some ((settings.get key).getD ""))
  | unset name =>
    update s name (fun key settings => .ok (settings.unset key)) fun _ _ =>
      showChange s json "Unset" name none

end SettingsTask
end CodeQuality
