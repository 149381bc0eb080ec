import CodegenTypes.MachineType.Family
import CodegenTypes.ValueType.Derived

namespace CodegenTypes.CommandLine

inductive TableSet
  | all
  | integer
  | float
  | vector
  | fixed
  | scalable
  | integerScalable
  | floatScalable
  deriving DecidableEq

inductive Derivation
  | widen
  | half
  | toInteger
  | double
  deriving DecidableEq

inductive ColorChoice
  | auto
  | always
  | never
  deriving DecidableEq

inductive Command
  | list (set : TableSet) (json : Bool) (color : ColorChoice)
  | summary (name : String) (json : Bool)
  | derive (name : String) (op : Derivation) (json : Bool)
  | bridge (name : String) (json : Bool)
  deriving DecidableEq

namespace TableSet

def choices : List TableSet :=
  [all, integer, float, vector, fixed, scalable, integerScalable, floatScalable]

def word : TableSet → String
  | all => "all"
  | integer => "integer"
  | float => "fp"
  | vector => "vector"
  | fixed => "fixed"
  | scalable => "scalable"
  | integerScalable => "int-scalable"
  | floatScalable => "fp-scalable"

def ofWord? (text : String) : Option TableSet := choices.find? fun c => c.word = text

def types : TableSet → List MachineType
  | all => MachineType.all
  | integer => MachineType.integers
  | float => MachineType.floats
  | vector => MachineType.vectors
  | fixed => MachineType.fixedVectors
  | scalable => MachineType.scalableVectors
  | integerScalable => MachineType.integerScalableVectors
  | floatScalable => MachineType.floatScalableVectors

end TableSet

namespace Derivation

def choices : List Derivation := [widen, half, toInteger, double]

def word : Derivation → String
  | widen => "widen"
  | half => "half"
  | toInteger => "to-int"
  | double => "double"

def ofWord? (text : String) : Option Derivation := choices.find? fun c => c.word = text

def apply (op : Derivation) (k : ContextId) (v : ValueType) : Interning ValueType :=
  match op with
  | widen => v.widen k
  | half => v.half k
  | toInteger => v.toInteger k
  | double => v.double k

end Derivation

namespace ColorChoice

def choices : List ColorChoice := [auto, always, never]

def word : ColorChoice → String
  | auto => "auto"
  | always => "always"
  | never => "never"

def ofWord? (text : String) : Option ColorChoice := choices.find? fun c => c.word = text

/-- Left to itself, a listing is coloured on a terminal only. -/
def isEnabled (terminal : Bool) : ColorChoice → Bool
  | auto => terminal
  | always => true
  | never => false

end ColorChoice

end CodegenTypes.CommandLine
