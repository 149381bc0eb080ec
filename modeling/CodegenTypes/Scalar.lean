import CodegenTypes.FloatFormat
import CodegenTypes.IRType

/-! Scalar kinds: the leaves that value types are built from.  Six integer widths,
seven floating-point formats, and placeholders that carry no number. -/

namespace CodegenTypes

inductive Scalar
  | i1
  | i8
  | i16
  | i32
  | i64
  | i128
  | f16
  | bf16
  | f32
  | f64
  | f80
  | f128
  | ppcf128
  | other
  | glue
  | isVoid
  | untyped
  | token
  | metadata
  deriving DecidableEq

namespace Scalar

def all : List Scalar :=
  [i1, i8, i16, i32, i64, i128, f16, bf16, f32, f64, f80, f128, ppcf128, other, glue, isVoid,
    untyped, token, metadata]

def name : Scalar → String
  | i1 => "i1"
  | i8 => "i8"
  | i16 => "i16"
  | i32 => "i32"
  | i64 => "i64"
  | i128 => "i128"
  | f16 => "f16"
  | bf16 => "bf16"
  | f32 => "f32"
  | f64 => "f64"
  | f80 => "f80"
  | f128 => "f128"
  | ppcf128 => "ppcf128"
  | other => "other"
  | glue => "glue"
  | isVoid => "isvoid"
  | untyped => "untyped"
  | token => "token"
  | metadata => "metadata"

def isInteger : Scalar → Bool
  | i1 | i8 | i16 | i32 | i64 | i128 => true
  | _ => false

def isFloat : Scalar → Bool
  | f16 | bf16 | f32 | f64 | f80 | f128 | ppcf128 => true
  | _ => false

def isNumeric (k : Scalar) : Bool := k.isInteger || k.isFloat

def bits? : Scalar → Option UInt32
  | i1 => some 1
  | i8 => some 8
  | i16 | f16 | bf16 => some 16
  | i32 | f32 => some 32
  | i64 | f64 => some 64
  | f80 => some 80
  | i128 | f128 | ppcf128 => some 128
  | _ => none

def format? : Scalar → Option FloatFormat
  | f16 => some .half
  | bf16 => some .bfloat
  | f32 => some .single
  | f64 => some .double
  | f80 => some .x87
  | f128 => some .quad
  | ppcf128 => some .doublePair
  | _ => none

def ofFormat : FloatFormat → Scalar
  | .half => f16
  | .bfloat => bf16
  | .single => f32
  | .double => f64
  | .x87 => f80
  | .quad => f128
  | .doublePair => ppcf128

def integer? (bits : UInt32) : Option Scalar :=
  if bits = 1 then some i1
  else if bits = 8 then some i8
  else if bits = 16 then some i16
  else if bits = 32 then some i32
  else if bits = 64 then some i64
  else if bits = 128 then some i128
  else none

def wider? (k : Scalar) : Option Scalar :=
  if k.isInteger then k.bits?.bind fun bits => integer? (bits * 2) else none

def toInteger? (k : Scalar) : Option Scalar :=
  if k.isInteger then some k
  else if k.isFloat then k.bits?.bind integer?
  else none

def irType? : Scalar → Option IRType
  | isVoid => some .void
  | token => some .token
  | metadata => some .metadata
  | other | glue | untyped => none
  | k =>
    match k.format? with
    | some format => some (.float format)
    | none => k.bits?.map .integer

def ofIRType? : IRType → Option Scalar
  | .void => some isVoid
  | .token => some token
  | .metadata => some metadata
  | .integer bits => integer? bits
  | .float format => some (ofFormat format)
  | .label | .vector _ _ => none

theorem isFloat_eq_isSome_format? (k : Scalar) : k.isFloat = k.format?.isSome := by
  cases k <;> rfl

@[simp] theorem bits?_ofFormat (f : FloatFormat) : (ofFormat f).bits? = some f.bits := by
  cases f <;> rfl

theorem integer?_eq_some_iff {bits : UInt32} {k : Scalar} :
    integer? bits = some k ↔ k.isInteger ∧ k.bits? = some bits := by
  constructor
  · intro h
    unfold integer? at h
    repeat' split at h
    all_goals cases h
    all_goals simp_all [isInteger, bits?]
  · rintro ⟨hk, hb⟩
    cases k <;> cases hk <;> cases hb <;> rfl

@[simp] theorem format?_ofFormat (f : FloatFormat) : (ofFormat f).format? = some f := by
  cases f <;> rfl

theorem ofIRType?_of_irType? {k : Scalar} {t : IRType} (h : k.irType? = some t) :
    ofIRType? t = some k := by
  cases k <;> cases h <;> rfl

end Scalar

end CodegenTypes
