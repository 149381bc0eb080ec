import CodegenTypes.Fault

namespace CodegenTypes

inductive ValueTypeError
  | invalid
  | notVector (name : String)
  | notIntegerVector (name : String)
  | noIntegerCounterpart (name : String)
  | noWiderInteger (name : String)
  | notCanonical (name : String)
  | notElement (name : String)
  | noIRType (name : String)
  | noValueType (text : String)
  | unknownName (text : String)
  | lanes (e : LaneError)
  | type (e : TypeError)
  deriving DecidableEq

inductive Failure
  | rejected (e : ValueTypeError)
  | fault (f : Fault)
  deriving DecidableEq

def ValueTypeError.message : ValueTypeError → String
  | .invalid => "invalid value type"
  | .notVector name => "`" ++ name ++ "` is not a vector type"
  | .notIntegerVector name => "`" ++ name ++ "` is not an integer vector type"
  | .noIntegerCounterpart name => "`" ++ name ++ "` has no integer counterpart"
  | .noWiderInteger name => "`" ++ name ++ "` has no wider integer element type"
  | .notCanonical name => "`" ++ name ++ "` is not in the canonical value type table"
  | .notElement name => "`" ++ name ++ "` cannot be a vector element"
  | .noIRType name => "`" ++ name ++ "` has no IR type"
  | .noValueType text => "IR type `" ++ text ++ "` has no value type"
  | .unknownName text => "unknown value type name `" ++ text ++ "`"
  | .lanes e => e.message
  | .type e => e.message

def Failure.message : Failure → String
  | .rejected e => e.message
  | .fault f => f.message

end CodegenTypes
