import CodeQuality.CommandLine.Help
import CodeQuality.Run
import Std.Time.DateTime.Timestamp

/-!
# The command line

The outer layer of the program: it takes arguments, environment, clock and the settings file from
the system, hands them to a run, and carries the outcome back. It brings no network along, so its
transport reaches no server, and no scripts for shells.
-/

namespace CodeQuality
namespace CommandLine

/-- The files that a run needs to see: that of the settings, if it is there. -/
def visibleFiles (path : String) : IO FileTree := do
  try
    let content ← IO.FS.readBinFile path
    match FilePath.ofString? path with
    | none => return {}
    | some target =>
      let (_, made) := ({} : FileTree).makeDirectories target.parent
      return (made.write target content.toList).2
  catch _ => return {}

/-- Writes the settings file as it is after a run, if the run has changed it. -/
def storeFile (path : String) (before after : FileTree) : IO Unit := do
  match FilePath.ofString? path with
  | none => return ()
  | some target =>
    match before.read target, after.read target with
    | .ok old, .ok new => if old ≠ new then write target.parent new
    | .error _, .ok new => write target.parent new
    | _, .error _ => return ()
where
  write (parent : List String) (octets : List UInt8) : IO Unit := do
    unless parent.isEmpty do IO.FS.createDirAll ("/".intercalate parent)
    IO.FS.writeBinFile path ⟨octets.toArray⟩

/-- The moment at which the program runs. -/
def currentInstant : IO Instant := do
  let now ← Std.Time.Timestamp.now
  return (Instant.ofUnix? now.toSecondsSinceUnixEpoch.val 0).getD ⟨0, 0⟩

/-- Runs the program and gives its exit code. -/
def execute (arguments : List String) : IO Nat := do
  let home ← IO.getEnv "HOME"
  let settingsPath := Settings.path? (← IO.getEnv "SQ_CONFIG") (← IO.getEnv "XDG_CONFIG_HOME") home
  let files ← settingsPath.elim (pure {}) visibleFiles
  let surroundings : Surroundings :=
    { server := ← IO.getEnv "SQ_SERVER"
      project := ← IO.getEnv "SQ_PROJECT"
      settingsPath, files
      now := ← currentInstant
      coloured := ← (← IO.getStdout).isTty
      transport := .offline
      explain := fun _ => "no configuration of this program" }
  match surroundings.run arguments with
  | .ok outcome =>
    IO.print outcome.output
    IO.eprint outcome.errors
    settingsPath.forM (storeFile · files outcome.files)
    return outcome.exitCode
  | .error e =>
    let text := if e.message.isEmpty then helpText else e.message ++ "\n"
    if e.exitCode = 0 then IO.print text else IO.eprint text
    return e.exitCode

end CommandLine
end CodeQuality

def main (arguments : List String) : IO UInt32 := do
  return UInt32.ofNat (← CodeQuality.CommandLine.execute arguments)
