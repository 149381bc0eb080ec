import CodegenTypes.MachineType.Basic

namespace CodegenTypes

inductive NumberClass
  | integer
  | float
  | other
  deriving DecidableEq

namespace NumberClass

def of (isInteger isFloat : Bool) : NumberClass :=
  if isInteger then integer else if isFloat then float else other

def name : NumberClass → String
  | integer => "int"
  | float => "float"
  | other => "other"

end NumberClass

def MachineType.numberClass (m : MachineType) : NumberClass := .of m.isInteger m.isFloat

end CodegenTypes
