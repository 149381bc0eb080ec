import CodegenTypes.CommandLine.Parse
import CodegenTypes.CommandLine.Report

namespace CodegenTypes.CommandLine

structure Exit where
  status : UInt8
  stdout : String
  stderr : String

def usage : String :=
  "Inspect code generation value types, including scalable vectors\n\n" ++
  "Usage: valtype <COMMAND>\n\n" ++
  "Commands:\n" ++
  "  list    List canonical value types [--filter SET] [--json] [--color WHEN]\n" ++
  "  show    Show properties of a value type: NAME [--json]\n" ++
  "  derive  Apply a derived-type operation to a vector type: NAME OP [--json]\n" ++
  "  bridge  Map a value type to its IR type and back: NAME [--json]\n" ++
  "  help    Print this message\n"

def Exit.ofUsageError : UsageError → Exit
  | .help => ⟨0, usage, ""⟩
  | _ => ⟨2, "", usage⟩

def execute (terminal : Bool) (words : List String) : Exit :=
  match Command.ofWords words with
  | .error e => .ofUsageError e
  | .ok c =>
    match c.output terminal with
    | .ok text => ⟨0, text, ""⟩
    | .error e => ⟨1, "", "error: " ++ e.message ++ "\n"⟩

end CodegenTypes.CommandLine
