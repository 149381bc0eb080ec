/-! Scanning the words after a command.  A word is a flag, an option, the value of
an option, or a positional argument.  An argument stays open until the next one
starts, because an option may still be waiting for its value; only then is it
settled, so a word that nothing expects is reported before a bad value. -/

namespace CodegenTypes.CommandLine

inductive UsageError
  | help
  | noCommand
  | unknownCommand
  | badValue
  | unexpectedArgument
  | repeatedArgument
  | unneededValue
  | missingArgument
  deriving DecidableEq

/-- An argument with a value, and the values it admits; `none` admits every text. -/
structure Slot where
  name : String
  admitted : Option (List String)

def Slot.admits (slot : Slot) (value : String) : Bool :=
  slot.admitted.all fun values => values.contains value

structure Form where
  flags : List String
  options : List Slot
  positionals : List Slot

structure Arguments where
  flags : List String
  values : List (String × String)
  /-- The last argument, while it may still be waiting for its value. -/
  opened : Option (Slot × Option String)
  remaining : List Slot
  /-- After `--` every word is a positional argument. -/
  positionalOnly : Bool

namespace Arguments

def start (form : Form) : Arguments := ⟨[], [], none, form.positionals, false⟩

def hasFlag (a : Arguments) (name : String) : Bool := a.flags.contains name

def value? (a : Arguments) (name : String) : Option String := a.values.lookup name

def accept (a : Arguments) (slot : Slot) (value : String) : Except UsageError Arguments :=
  if (a.value? slot.name).isSome then .error .repeatedArgument
  else if slot.admits value then .ok { a with values := (slot.name, value) :: a.values }
  else .error .badValue

def settle (a : Arguments) : Except UsageError Arguments :=
  match a.opened with
  | none => .ok a
  | some (_, none) => .error .badValue
  | some (slot, some value) => { a with opened := none }.accept slot value

def flag (a : Arguments) (name : String) : Except UsageError Arguments := do
  let a ← a.settle
  if a.hasFlag name then throw .repeatedArgument
  return { a with flags := name :: a.flags }

def option (a : Arguments) (slot : Slot) (attached : Option String) : Except UsageError Arguments := do
  let a ← a.settle
  match attached with
  | some value => a.accept slot value
  | none => return { a with opened := some (slot, none) }

def positional (a : Arguments) (word : String) : Except UsageError Arguments :=
  match a.remaining with
  | [] => .error .unexpectedArgument
  | slot :: rest => do
    let a ← a.settle
    return { a with opened := some (slot, some word), remaining := rest }

def bare (a : Arguments) (word : String) : Except UsageError Arguments :=
  match a.opened with
  | some (slot, none) => .ok { a with opened := some (slot, some word) }
  | _ => a.positional word

def help (a : Arguments) : Except UsageError Arguments := do
  let _ ← a.settle
  throw .help

def long (form : Form) (a : Arguments) (name : String) (attached : Option String) :
    Except UsageError Arguments :=
  match form.options.find? fun slot => slot.name = name with
  | some slot => a.option slot attached
  | none =>
    if name = "help" ∨ name ∈ form.flags then
      if attached.isSome then .error .unneededValue
      else if name = "help" then a.help
      else a.flag name
    else .error .unexpectedArgument

def splitAttached (cs : List Char) : String × Option String :=
  match cs.dropWhile (· ≠ '=') with
  | [] => (String.ofList cs, none)
  | _ :: value => (String.ofList (cs.takeWhile (· ≠ '=')), some (String.ofList value))

def step (form : Form) (a : Arguments) (word : String) : Except UsageError Arguments :=
  if a.positionalOnly then a.positional word
  else
    match word.toList with
    | ['-', '-'] => .ok { a with positionalOnly := true }
    | '-' :: '-' :: cs =>
      let (name, attached) := splitAttached cs
      long form a name attached
    | '-' :: 'h' :: _ => a.help
    | '-' :: _ :: _ => .error .unexpectedArgument
    | _ => a.bare word

def finish (a : Arguments) : Except UsageError Arguments := do
  let a ← a.settle
  if a.remaining.isEmpty then return a else throw .missingArgument

def scan (form : Form) (words : List String) : Except UsageError Arguments := do
  finish (← words.foldlM (step form) (start form))

end Arguments

end CodegenTypes.CommandLine
