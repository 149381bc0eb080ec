import CodegenTypes.CommandLine.Arguments
import CodegenTypes.CommandLine.Command

namespace CodegenTypes.CommandLine

def listForm : Form :=
  ⟨["json"], [⟨"filter", some (TableSet.choices.map TableSet.word)⟩,
    ⟨"color", some (ColorChoice.choices.map ColorChoice.word)⟩], []⟩

def nameForm : Form := ⟨["json"], [], [⟨"name", none⟩]⟩

def deriveForm : Form :=
  ⟨["json"], [], [⟨"name", none⟩, ⟨"op", some (Derivation.choices.map Derivation.word)⟩]⟩

namespace Command

def names : List String := ["list", "show", "derive", "bridge"]

def ofListWords (words : List String) : Except UsageError Command := do
  let a ← Arguments.scan listForm words
  return list (((a.value? "filter").bind TableSet.ofWord?).getD .all) (a.hasFlag "json")
    (((a.value? "color").bind ColorChoice.ofWord?).getD .auto)

def ofNameWords (command : String → Bool → Command) (words : List String) :
    Except UsageError Command := do
  let a ← Arguments.scan nameForm words
  return command ((a.value? "name").getD "") (a.hasFlag "json")

def ofDeriveWords (words : List String) : Except UsageError Command := do
  let a ← Arguments.scan deriveForm words
  return derive ((a.value? "name").getD "")
    (((a.value? "op").bind Derivation.ofWord?).getD .widen) (a.hasFlag "json")

/-- Help may name one command, and no command has commands of its own. -/
def helpError : List String → UsageError
  | [] => .help
  | [name] => if name ∈ "help" :: names then .help else .unknownCommand
  | _ => .unknownCommand

def firstWordError (word : String) : UsageError :=
  match word.toList with
  | '-' :: '-' :: cs =>
    match Arguments.splitAttached cs with
    | ("help", none) => .help
    | ("help", some _) => .unneededValue
    | _ => .unexpectedArgument
  | '-' :: 'h' :: _ => .help
  | '-' :: _ :: _ => .unexpectedArgument
  | _ => .unknownCommand

def ofWords : List String → Except UsageError Command
  | [] | ["--"] => .error .noCommand
  | "list" :: words => ofListWords words
  | "show" :: words => ofNameWords summary words
  | "derive" :: words => ofDeriveWords words
  | "bridge" :: words => ofNameWords bridge words
  | "help" :: words => .error (helpError words)
  | "--" :: word :: _ =>
    .error (if word ∈ "help" :: names then .unexpectedArgument else .unknownCommand)
  | word :: _ => .error (firstWordError word)

end Command

end CodegenTypes.CommandLine
