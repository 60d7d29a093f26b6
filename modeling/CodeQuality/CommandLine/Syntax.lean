import CodeQuality.Program

/-!
# The syntax of command lines

What a command line may hold: commands inside commands, options that are known everywhere below the
command that has them, and operands. A command with commands inside it needs one of them. Each
command also knows `--help` and `--version`, and one with commands inside it knows the command
`help`.
-/

namespace CodeQuality

namespace CommandLine

/-- What an option takes. -/
inductive OptionKind where
  /-- nothing, and it is given once -/
  | switch
  /-- one value, and it is given once -/
  | single (placeholder : String)
  /-- values with commas between them, as often as it is given -/
  | list (placeholder : String)
  /-- a name and a value with an equals sign between them, each time it is given -/
  | pair (placeholder : String)
deriving DecidableEq, Repr

/-- An option by its long name and, if it has one, its letter. -/
structure OptionSpec where
  long : String
  letter? : Option Char := none
  kind : OptionKind
deriving DecidableEq, Repr

namespace OptionSpec

def takesValue (o : OptionSpec) : Bool := o.kind ≠ .switch

/-- May the option be given again? -/
def isRepeatable (o : OptionSpec) : Bool :=
  match o.kind with
  | .list _ => true
  | .pair _ => true
  | _ => false

/-- The option as messages show it. -/
def usage (o : OptionSpec) : String :=
  match o.kind with
  | .switch => "--" ++ o.long
  | .single p => "--" ++ o.long ++ " <" ++ p ++ ">"
  | .list p => "--" ++ o.long ++ " <" ++ p ++ ">"
  | .pair p => "--" ++ o.long ++ " <" ++ p ++ ">"

end OptionSpec

/-- A command. -/
inductive CommandSpec where
  | mk (name : String) (aliases : List String) (options : List OptionSpec)
    (operands : List (String × Bool)) (required : List (List String))
    (exclusive : List (String × String)) (commands : List CommandSpec)
deriving Repr

namespace CommandSpec

def name : CommandSpec → String
  | mk name _ _ _ _ _ _ => name

def aliases : CommandSpec → List String
  | mk _ aliases _ _ _ _ _ => aliases

/-- The options that only this command knows. -/
def options : CommandSpec → List OptionSpec
  | mk _ _ options _ _ _ _ => options

/-- The operands, and whether each has to be there. -/
def operands : CommandSpec → List (String × Bool)
  | mk _ _ _ operands _ _ _ => operands

/-- Groups of options of each of which one has to be given. -/
def required : CommandSpec → List (List String)
  | mk _ _ _ _ required _ _ => required

/-- Options that exclude each other. -/
def exclusive : CommandSpec → List (String × String)
  | mk _ _ _ _ _ exclusive _ => exclusive

def commands : CommandSpec → List CommandSpec
  | mk _ _ _ _ _ _ commands => commands

/-- The command inside this one that is called `name`. -/
def find? (c : CommandSpec) (name : String) : Option CommandSpec :=
  c.commands.find? fun d => d.name = name || d.aliases.contains name

end CommandSpec

/-- Why a command line is not carried out. -/
inductive UsageError where
  | help
  /-- the version of a command was asked for -/
  | version (command : String)
  | helpForMissingCommand
  | missingCommand (command : String)
  | unknownCommand (argument : String)
  | unknownArgument (argument : String)
  | missingRequired
  | missingValue (option : OptionSpec)
  | badPair (option : OptionSpec) (value reason : String)
  | repeated (option : OptionSpec)
  | excluded (option other : OptionSpec)
  | unexpectedValue (option : OptionSpec) (value : String)
deriving DecidableEq, Repr

namespace UsageError

/-- What is said about the error; help has a page of its own. -/
def message : UsageError → String
  | help => ""
  | version command => command ++ " " ++ CodeQuality.version
  | helpForMissingCommand => ""
  | missingCommand command =>
    "error: '" ++ command ++ "' requires a subcommand but one was not provided"
  | unknownCommand argument => "error: unrecognized subcommand '" ++ argument ++ "'"
  | unknownArgument argument => "error: unexpected argument '" ++ argument ++ "' found"
  | missingRequired => "error: the following required arguments were not provided:"
  | missingValue o => "error: a value is required for '" ++ o.usage ++ "' but none was supplied"
  | badPair o value reason =>
    "error: invalid value '" ++ value ++ "' for '" ++ o.usage ++ "': " ++ reason
  | repeated o => "error: the argument '" ++ o.usage ++ "' cannot be used multiple times"
  | excluded o other =>
    "error: the argument '" ++ o.usage ++ "' cannot be used with '" ++ other.usage ++ "'"
  | unexpectedValue o value =>
    "error: unexpected value '" ++ value ++ "' for '" ++ o.usage ++
      "' found; no more were expected"

/-- The exit code: help and version are no failures. -/
def exitCode : UsageError → Nat
  | help => 0
  | version _ => 0
  | _ => 2

end UsageError
end CommandLine
end CodeQuality
