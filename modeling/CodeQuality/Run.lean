import CodeQuality.Run.Settings

/-!
# The program

A run of the program: from its arguments and what it finds around it to its outcome.
-/

namespace CodeQuality

/-- The command that a command line asks for. -/
def Invocation.command (s : Surroundings) (i : Invocation) : Command Unit :=
  match i.task with
  | .server task => task.run s i.options
  | .settings task => task.run s i.options.json
  | .completion shell => Command.print (s.script shell)
  | .version => Command.print (programName ++ " version " ++ version ++ "\n")

/-- Carries out what a command line asks for. -/
def Invocation.run (s : Surroundings) (i : Invocation) : Outcome := s.carryOut (i.command s)

/-- A run of the program, unless its arguments are not understood or ask for help. -/
def Surroundings.run (s : Surroundings) (arguments : List String) :
    Except CommandLine.UsageError Outcome :=
  (Invocation.read s.server s.project arguments).map (Invocation.run s)

end CodeQuality
