namespace CodegenTypes

inductive FloatFormat
  | half
  | bfloat
  | single
  | double
  | x87
  | quad
  | doublePair
  deriving DecidableEq

namespace FloatFormat

def all : List FloatFormat := [half, bfloat, single, double, x87, quad, doublePair]

def bits : FloatFormat → UInt32
  | half | bfloat => 16
  | single => 32
  | double => 64
  | x87 => 80
  | quad | doublePair => 128

def name : FloatFormat → String
  | half => "half"
  | bfloat => "bfloat"
  | single => "float"
  | double => "double"
  | x87 => "x86_fp80"
  | quad => "fp128"
  | doublePair => "ppc_fp128"

/-- The word for the format in serialized data. -/
def tag : FloatFormat → String
  | half => "Half"
  | bfloat => "BFloat"
  | single => "Single"
  | double => "Double"
  | x87 => "X86Fp80"
  | quad => "Quad"
  | doublePair => "PpcDoubleDouble"

def ofTag? (word : String) : Option FloatFormat := all.find? (·.tag == word)

end FloatFormat

end CodegenTypes
