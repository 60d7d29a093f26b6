import CodeQuality.CommandLine.Level
import CodeQuality.Operations
import CodeQuality.Settings

/-!
# What a command line asks for

The commands of the program, and the task that a command line gives it. Options for server, project,
mock mode and JSON are known to every command; server and project may also come from the
environment, and what stands further inside a command line goes before what stands further outside.
-/

namespace CodeQuality

open CommandLine

/-- The options that hold for every task. -/
structure GlobalOptions where
  server : Option String := none
  project : Option String := none
  mock : Bool := false
  json : Bool := false
deriving DecidableEq, Repr

/-- The branch or pull request that is to be deleted. -/
inductive DeleteTarget where
  | branch (name : String)
  | pullRequest (id : String)
deriving DecidableEq, Repr

/-- The shells that a completion script can be made for. -/
inductive Shell where
  | bash
  | zsh
  | fish
  | powershell
deriving DecidableEq, Repr

/-- What the program asks of a server. -/
inductive ServerTask where
  | listBranches
  | deleteBranch (target : DeleteTarget) (confirmed : Bool)
  | renameBranch (name : String)
  | measures (component : Option String) (metrics : List String) (branch pullRequest : Option String)
  | measuresAndMeta (component : Option String) (metrics : List String)
    (additional : List (String × String))
  | projectMeasures (projects metrics : List String)
deriving DecidableEq, Repr

/-- What the program does with its settings. -/
inductive SettingsTask where
  | get (key : String)
  | set (key value : String)
  | unset (key : String)
  | list
  | path
deriving DecidableEq, Repr

/-- What the program is asked to do. -/
inductive Task where
  | server (task : ServerTask)
  | settings (task : SettingsTask)
  | completion (shell : Shell)
  | version
deriving DecidableEq, Repr

/-- A task with its options. -/
structure Invocation where
  options : GlobalOptions
  task : Task
deriving DecidableEq, Repr

namespace Invocation

def serverOption : OptionSpec := { long := "server", letter? := some 's', kind := .single "SERVER" }

def projectOption : OptionSpec :=
  { long := "project", letter? := some 'p', kind := .single "PROJECT" }

def mockOption : OptionSpec := { long := "mock", kind := .switch }

def jsonOption : OptionSpec := { long := "json", kind := .switch }

/-- The options that every command knows. -/
def globalOptions : List OptionSpec := [serverOption, projectOption, mockOption, jsonOption]

def branchOption : OptionSpec := { long := "branch", letter? := some 'b', kind := .single "BRANCH" }

def pullRequestOption : OptionSpec := { long := "pull-request", kind := .single "PULL_REQUEST" }

def confirmOption : OptionSpec := { long := "yes", letter? := some 'y', kind := .switch }

def metricOption : OptionSpec := { long := "metric", letter? := some 'm', kind := .list "METRICS" }

def paramOption : OptionSpec := { long := "param", kind := .pair "PARAMS" }

def projectsOption : OptionSpec :=
  { long := "projects", letter? := some 'P', kind := .list "PROJECTS" }

/-- A command with nothing but operands. -/
def leaf (name : String) (operands : List (String × Bool)) (aliases : List String) : CommandSpec :=
  .mk name aliases [] operands [] [] []

def branchCommand : CommandSpec :=
  .mk "branch" ["br"] [] [] [] []
    [leaf "list" [] ["ls"],
      .mk "delete" [] [branchOption, pullRequestOption, confirmOption] []
        [["branch", "pull-request"]] [("branch", "pull-request")] [],
      leaf "rename" [("NAME", true)] []]

def measureCommand : CommandSpec :=
  .mk "measure" ["m"] [] [] [] []
    [.mk "get" [] [metricOption, branchOption, pullRequestOption] [("COMPONENT", false)]
        [["metric"]] [("branch", "pull-request")] [],
      .mk "meta" [] [metricOption, paramOption] [("COMPONENT", false)] [["metric"]] [] [],
      .mk "projects" [] [projectsOption, metricOption] [] [["projects"], ["metric"]] [] []]

def settingsCommand : CommandSpec :=
  .mk "config" [] [] [] [] []
    [leaf "get" [("KEY", true)] [], leaf "set" [("KEY", true), ("VALUE", true)] [],
      leaf "unset" [("KEY", true)] [], leaf "list" [] ["ls"], leaf "path" [] []]

def completionCommand : CommandSpec :=
  .mk "completion" [] [] [] [] []
    [leaf "bash" [] [], leaf "zsh" [] [], leaf "fish" [] [], leaf "powershell" [] []]

/-- The program with all its commands. -/
def program : CommandSpec :=
  .mk programName [] [] [] [] []
    [branchCommand, measureCommand, settingsCommand, completionCommand, leaf "version" [] []]

/-! ### From levels to tasks -/

/-- All values of an option of a level. -/
def values (l : Level) (o : OptionSpec) : List String :=
  (l.given.filter (·.1.long = o.long)).flatMap (·.2)

/-- The value of an option of a level, if it is given. -/
def value? (l : Level) (o : OptionSpec) : Option String := (values l o).head?

/-- The value of a global option: the innermost that is given, or else that of the environment. -/
def globalValue? (g : Globals) (levels : List Level) (o : OptionSpec) : Option String :=
  (levels.reverse.findSome? (value? · o)).or (g.environment.lookup o.long)

def globalsOf (g : Globals) (levels : List Level) : GlobalOptions :=
  { server := globalValue? g levels serverOption
    project := globalValue? g levels projectOption
    mock := levels.any (·.has mockOption.long)
    json := levels.any (·.has jsonOption.long) }

/-- Name and value of a pair. -/
def pairOf (value : String) : String × String :=
  let (name, value) := Level.cutAtEquals value
  (name, value.getD "")

/-- The target of a deletion. -/
def targetOf (l : Level) : Option DeleteTarget :=
  match value? l branchOption, value? l pullRequestOption with
  | some name, _ => some (.branch name)
  | none, some id => some (.pullRequest id)
  | none, none => none

/-- What is asked of a server by the command to which `path` leads, of which `l` is the level. -/
def serverTask? (path : List String) (l : Level) : Option ServerTask :=
  match path, l.operands with
  | ["branch", "list"], _ => some .listBranches
  | ["branch", "delete"], _ =>
    (targetOf l).map fun target => .deleteBranch target (l.has confirmOption.long)
  | ["branch", "rename"], [name] => some (.renameBranch name)
  | ["measure", "get"], operands =>
    some (.measures operands.head? (values l metricOption) (value? l branchOption)
      (value? l pullRequestOption))
  | ["measure", "meta"], operands =>
    some (.measuresAndMeta operands.head? (values l metricOption)
      ((values l paramOption).map pairOf))
  | ["measure", "projects"], _ =>
    some (.projectMeasures (values l projectsOption) (values l metricOption))
  | _, _ => none

/-- What is done with the settings by the command to which `path` leads. -/
def settingsTask? (path : List String) (l : Level) : Option SettingsTask :=
  match path, l.operands with
  | ["config", "get"], [key] => some (.get key)
  | ["config", "set"], [key, value] => some (.set key value)
  | ["config", "unset"], [key] => some (.unset key)
  | ["config", "list"], _ => some .list
  | ["config", "path"], _ => some .path
  | _, _ => none

/-- The task of the command to which `path` leads. -/
def task? (path : List String) (l : Level) : Option Task :=
  match path with
  | ["completion", "bash"] => some (.completion .bash)
  | ["completion", "zsh"] => some (.completion .zsh)
  | ["completion", "fish"] => some (.completion .fish)
  | ["completion", "powershell"] => some (.completion .powershell)
  | ["version"] => some .version
  | _ => ((serverTask? path l).map .server).or ((settingsTask? path l).map .settings)

/-- What a command line asks for. The environment may name a server and a project. -/
def read (server project : Option String) (arguments : List String) :
    Except UsageError Invocation := do
  let named (o : OptionSpec) (value : Option String) := (value.map (o.long, ·)).toList
  let g : Globals :=
    ⟨globalOptions, named serverOption server ++ named projectOption project⟩
  let levels ← CommandLine.read program g arguments
  match levels.getLast? with
  | none => throw .helpForMissingCommand
  | some l =>
    match task? l.path.tail l with
    | some task => return ⟨globalsOf g levels, task⟩
    | none => throw .missingRequired

end Invocation
end CodeQuality
