import CodeQuality.CommandLine.Invocation

/-!
# Help

What is shown to a user who asks how the program is called: its commands with those inside them, and
the options that every command knows.
-/

namespace CodeQuality
namespace CommandLine

mutual

/-- A command and the commands inside it, one a line. -/
def CommandSpec.outline (depth : Nat) : CommandSpec → List String
  | .mk name _ options operands _ _ commands =>
    let words := name :: options.map (fun o => "[" ++ o.usage ++ "]") ++
      operands.map fun (operand, needed) =>
        if needed then "<" ++ operand ++ ">" else "[" ++ operand ++ "]"
    (String.ofList (List.replicate (2 * depth) ' ') ++ " ".intercalate words) ::
      outlines (depth + 1) commands

/-- Commands and the commands inside them, one a line. -/
def outlines (depth : Nat) : List CommandSpec → List String
  | [] => []
  | c :: cs => c.outline depth ++ outlines depth cs

end

/-- How the program is called. -/
def helpText : String :=
  "\n".intercalate (("Usage: " ++ Invocation.program.name ++ " [OPTIONS] <COMMAND>") ::
    "" :: "Commands:" :: outlines 1 Invocation.program.commands ++
    "" :: "Options:" :: (Invocation.globalOptions ++ [helpOption, versionOption]).map
      ("  " ++ ·.usage)) ++ "\n"

end CommandLine
end CodeQuality
