import CodeQuality.CommandLine.Syntax
import CodeQuality.Text.Parts

/-!
# Reading a command line

The arguments are read one by one. A `Level` is what has been read for one command; an argument that
names a command inside it opens the next level. The value of an option is settled only when the next
option or operand comes, so a fault in it gives way to an unknown option behind it. At the end the
levels are closed from the innermost one outwards, and closing a level finds what is missing.
-/

namespace CodeQuality
namespace CommandLine

/-- What has been read for one command. -/
structure Level where
  spec : CommandSpec
  /-- the names of the commands down to this one -/
  path : List String
  /-- the options that have been settled, with their values -/
  given : List (OptionSpec × List String) := []
  operands : List String := []
  /-- the option that came last, with its value if that has come too -/
  pending : Option (OptionSpec × Option String) := none
  /-- is the next argument the value of the option that came last? -/
  awaiting : Bool := false
  /-- are all arguments from here on operands? -/
  onlyOperands : Bool := false
deriving Repr

/-- The options that every command knows. -/
structure Globals where
  options : List OptionSpec
  /-- the values that the environment gives to some of them -/
  environment : List (String × String)

def helpOption : OptionSpec := { long := "help", letter? := some 'h', kind := .switch }

def versionOption : OptionSpec := { long := "version", letter? := some 'V', kind := .switch }

namespace Level

/-- All options that the level knows. -/
def options (g : Globals) (l : Level) : List OptionSpec :=
  l.spec.options ++ g.options ++ [helpOption, versionOption]

/-- Has the option been settled? -/
def has (l : Level) (long : String) : Bool := l.given.any (·.1.long = long)

/-- What stands before the first equals sign and behind it, if there is one. -/
def cutAtEquals (s : String) : String × Option String :=
  match s.toList.dropWhile (· ≠ '=') with
  | _ :: value => (String.ofList (s.toList.takeWhile (· ≠ '=')), some (String.ofList value))
  | [] => (s, none)

/-- Why `value` is no name and value with an equals sign between them. -/
def pairFault? (value : String) : Option String :=
  match cutAtEquals value with
  | (_, none) => some ("expected KEY=VALUE, got '" ++ value ++ "'")
  | ("", _) => some "parameter name cannot be empty"
  | _ => none

/-- The values that an option has when `value` is given to it. -/
def valuesOf (o : OptionSpec) (value : String) : Except UsageError (List String) :=
  match o.kind with
  | .switch => .ok []
  | .single _ => .ok [value]
  | .list _ => .ok ((Text.split ',' value.toList).map String.ofList)
  | .pair _ =>
    match pairFault? value with
    | some reason => .error (.badPair o value reason)
    | none => .ok [value]

/-- Settles an option that has come with a value or without. -/
def settle (l : Level) (o : OptionSpec) (value : Option String) : Except UsageError Level :=
  if o.long = "help" then .error .help
  else if o.long = "version" then .error (.version ("-".intercalate l.path))
  else
    match value with
    | none =>
      if o.takesValue then .error (.missingValue o)
      else if l.has o.long then .error (.repeated o)
      else .ok { l with given := l.given ++ [(o, [])] }
    | some value =>
      if !o.isRepeatable && l.has o.long then .error (.repeated o)
      else do
        let values ← valuesOf o value
        return { l with given := l.given ++ [(o, values)] }

/-- Settles the option that came last. -/
def settlePending (l : Level) : Except UsageError Level :=
  match l.pending with
  | none => .ok l
  | some (o, value) => { l with pending := none }.settle o value

/-- Takes an option that has its value with it. -/
def takeWith (l : Level) (o : OptionSpec) (value : String) : Except UsageError Level := do
  let l ← l.settlePending
  let l ← l.settle o (some value)
  return { l with awaiting := false }

/-- Takes an option without a value: one that needs none is settled, any other waits for it. -/
def take (l : Level) (o : OptionSpec) : Except UsageError Level := do
  let l ← l.settlePending
  if o.takesValue then return { l with pending := some (o, none), awaiting := true }
  else
    let l ← l.settle o none
    return { l with awaiting := false }

/-- An argument behind two hyphens. -/
def long (g : Globals) (l : Level) (body : String) : Except UsageError Level :=
  let (name, value) := cutAtEquals body
  match (l.options g).find? (·.long = name), value with
  | none, _ => .error (.unknownArgument ("--" ++ name))
  | some o, none => l.take o
  | some o, some value =>
    if o.takesValue then l.takeWith o value else .error (.unexpectedValue o value)

/-- Letters behind one hyphen; what follows the letter of an option that takes a value is the
value. -/
def letters (g : Globals) (l : Level) : List Char → Except UsageError Level
  | [] => .ok l
  | c :: cs =>
    match (l.options g).find? (·.letter? = some c) with
    | none => .error (.unknownArgument (String.ofList ['-', c]))
    | some o =>
      if o.takesValue then
        match cs with
        | [] => l.take o
        | '=' :: value => l.takeWith o (String.ofList value)
        | value => l.takeWith o (String.ofList value)
      else do
        let l ← l.take o
        l.letters g cs

/-- An argument that is an operand, if the command takes one more. -/
def operand (l : Level) (argument : String) : Except UsageError Level :=
  if l.operands.length < l.spec.operands.length then do
    let l ← l.settlePending
    return { l with operands := l.operands ++ [argument], awaiting := false }
  else if l.spec.commands.isEmpty then .error (.unknownArgument argument)
  else if l.onlyOperands && ((l.spec.find? argument).isSome || argument = "help") then
    .error (.unknownArgument argument)
  else .error (.unknownCommand argument)

/-- An argument that names no command. -/
def argument (g : Globals) (l : Level) (argument : String) : Except UsageError Level :=
  if l.onlyOperands then l.operand argument
  else
    match argument.toList with
    | ['-', '-'] => .ok { l with onlyOperands := true, awaiting := false }
    | '-' :: '-' :: body => l.long g (String.ofList body)
    | '-' :: c :: cs => l.letters g (c :: cs)
    | _ =>
      match l.awaiting, l.pending with
      | true, some (o, _) => .ok { l with pending := some (o, some argument), awaiting := false }
      | _, _ => l.operand argument

/-- Do two options exclude each other? -/
def excludes (l : Level) (o other : OptionSpec) : Bool :=
  l.spec.exclusive.any fun (x, y) =>
    (x = o.long && y = other.long) || (x = other.long && y = o.long)

/-- The first option that another one excludes, and that one. -/
def clash? (l : Level) : Option (OptionSpec × OptionSpec) :=
  let options := l.given.map (·.1)
  options.findSome? fun o => (options.find? (l.excludes o)).map (o, ·)

/-- Is everything there that has to be? -/
def isComplete (l : Level) : Bool :=
  !(l.spec.operands.drop l.operands.length).any (·.2) && l.spec.required.all (·.any l.has)

/-- Closes the level; `inner` tells whether a command inside it has been named. -/
def close (g : Globals) (inner : Bool) (l : Level) : Except UsageError Level := do
  let l ← l.settlePending
  if !l.spec.commands.isEmpty && !inner then
    if l.given.isEmpty && g.environment.isEmpty then throw .helpForMissingCommand
    else throw (.missingCommand (" ".intercalate l.path))
  match l.clash? with
  | some (o, other) => throw (.excluded o other)
  | none => if l.isComplete then return l else throw .missingRequired

end Level

/-- How far a command line has been read. -/
inductive State where
  /-- the levels around the innermost one, from the inside out, and that one -/
  | reading (outer : List Level) (level : Level)
  /-- help on a command is wanted -/
  | helping (spec : CommandSpec)
deriving Repr

namespace State

/-- The command `help` knows no others. -/
def helpSpec : CommandSpec := .mk "help" [] [] [] [] [] []

/-- The command inside `c` that help is wanted on. -/
def helpOn (c : CommandSpec) (name : String) : Except UsageError State :=
  match c.find? name with
  | some d => .ok (.helping d)
  | none =>
    if name = "help" && !c.commands.isEmpty then .ok (.helping helpSpec)
    else .error (.unknownCommand name)

/-- Reads one argument. -/
def step (g : Globals) (argument : String) : State → Except UsageError State
  | helping c => helpOn c argument
  | reading outer l =>
    let named := if l.onlyOperands || l.awaiting then none else l.spec.find? argument
    match named with
    | some inner => .ok (reading (l :: outer) { spec := inner, path := l.path ++ [inner.name] })
    | none =>
      if argument = "help" && !l.onlyOperands && !l.awaiting && !l.spec.commands.isEmpty then
        .ok (.helping l.spec)
      else (l.argument g argument).map (reading outer)

/-- Closes the levels from the inside out; the result has the outermost one first. -/
def close (g : Globals) : State → Except UsageError (List Level)
  | helping _ => .error .help
  | reading outer l => do
    let l ← l.close g false
    let outer ← outer.mapM (Level.close g true)
    return (l :: outer).reverse

end State

/-- The levels of a command line, the outermost first. -/
def read (root : CommandSpec) (g : Globals) (arguments : List String) :
    Except UsageError (List Level) := do
  let start : State := .reading [] { spec := root, path := [root.name] }
  let final ← arguments.foldlM (fun s a => s.step g a) start
  final.close g

end CommandLine
end CodeQuality
