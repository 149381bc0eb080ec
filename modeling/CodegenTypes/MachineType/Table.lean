import CodegenTypes.MachineType.Shape

/-! The canonical table.  A machine type is a position in it, so comparing machine
types compares positions.  Position 0 is the invalid type, then come the scalars,
the fixed vectors and the scalable vectors. -/

namespace CodegenTypes

structure MachineType where
  index : Fin 145
  deriving DecidableEq

namespace MachineType

/-- An entry is written out with its name beside its shape. -/
structure Entry where
  name : String
  shape : Shape

def scalarEntries : List Entry :=
  [⟨"i1", .scalar .i1⟩, ⟨"i8", .scalar .i8⟩, ⟨"i16", .scalar .i16⟩, ⟨"i32", .scalar .i32⟩,
    ⟨"i64", .scalar .i64⟩, ⟨"i128", .scalar .i128⟩, ⟨"f16", .scalar .f16⟩, ⟨"bf16", .scalar .bf16⟩,
    ⟨"f32", .scalar .f32⟩, ⟨"f64", .scalar .f64⟩, ⟨"f80", .scalar .f80⟩, ⟨"f128", .scalar .f128⟩,
    ⟨"ppcf128", .scalar .ppcf128⟩, ⟨"other", .scalar .other⟩, ⟨"glue", .scalar .glue⟩,
    ⟨"isvoid", .scalar .isVoid⟩, ⟨"untyped", .scalar .untyped⟩, ⟨"token", .scalar .token⟩,
    ⟨"metadata", .scalar .metadata⟩]

def fixedEntries : List Entry :=
  [⟨"v1i1", .fixed .i1 1⟩, ⟨"v2i1", .fixed .i1 2⟩, ⟨"v4i1", .fixed .i1 4⟩, ⟨"v8i1", .fixed .i1 8⟩,
    ⟨"v16i1", .fixed .i1 16⟩, ⟨"v32i1", .fixed .i1 32⟩, ⟨"v64i1", .fixed .i1 64⟩,
    ⟨"v128i1", .fixed .i1 128⟩, ⟨"v256i1", .fixed .i1 256⟩, ⟨"v512i1", .fixed .i1 512⟩,
    ⟨"v1024i1", .fixed .i1 1024⟩,
    ⟨"v1i8", .fixed .i8 1⟩, ⟨"v2i8", .fixed .i8 2⟩, ⟨"v4i8", .fixed .i8 4⟩, ⟨"v8i8", .fixed .i8 8⟩,
    ⟨"v16i8", .fixed .i8 16⟩, ⟨"v32i8", .fixed .i8 32⟩, ⟨"v64i8", .fixed .i8 64⟩,
    ⟨"v128i8", .fixed .i8 128⟩, ⟨"v256i8", .fixed .i8 256⟩,
    ⟨"v1i16", .fixed .i16 1⟩, ⟨"v2i16", .fixed .i16 2⟩, ⟨"v4i16", .fixed .i16 4⟩,
    ⟨"v8i16", .fixed .i16 8⟩, ⟨"v16i16", .fixed .i16 16⟩, ⟨"v32i16", .fixed .i16 32⟩,
    ⟨"v64i16", .fixed .i16 64⟩, ⟨"v128i16", .fixed .i16 128⟩,
    ⟨"v1i32", .fixed .i32 1⟩, ⟨"v2i32", .fixed .i32 2⟩, ⟨"v3i32", .fixed .i32 3⟩,
    ⟨"v4i32", .fixed .i32 4⟩, ⟨"v5i32", .fixed .i32 5⟩, ⟨"v8i32", .fixed .i32 8⟩,
    ⟨"v16i32", .fixed .i32 16⟩, ⟨"v32i32", .fixed .i32 32⟩, ⟨"v64i32", .fixed .i32 64⟩,
    ⟨"v128i32", .fixed .i32 128⟩, ⟨"v256i32", .fixed .i32 256⟩, ⟨"v512i32", .fixed .i32 512⟩,
    ⟨"v1024i32", .fixed .i32 1024⟩, ⟨"v2048i32", .fixed .i32 2048⟩,
    ⟨"v1i64", .fixed .i64 1⟩, ⟨"v2i64", .fixed .i64 2⟩, ⟨"v4i64", .fixed .i64 4⟩,
    ⟨"v8i64", .fixed .i64 8⟩, ⟨"v16i64", .fixed .i64 16⟩, ⟨"v32i64", .fixed .i64 32⟩,
    ⟨"v1i128", .fixed .i128 1⟩,
    ⟨"v2f16", .fixed .f16 2⟩, ⟨"v4f16", .fixed .f16 4⟩, ⟨"v8f16", .fixed .f16 8⟩,
    ⟨"v16f16", .fixed .f16 16⟩, ⟨"v32f16", .fixed .f16 32⟩,
    ⟨"v1f32", .fixed .f32 1⟩, ⟨"v2f32", .fixed .f32 2⟩, ⟨"v3f32", .fixed .f32 3⟩,
    ⟨"v4f32", .fixed .f32 4⟩, ⟨"v5f32", .fixed .f32 5⟩, ⟨"v8f32", .fixed .f32 8⟩,
    ⟨"v16f32", .fixed .f32 16⟩, ⟨"v32f32", .fixed .f32 32⟩, ⟨"v64f32", .fixed .f32 64⟩,
    ⟨"v128f32", .fixed .f32 128⟩, ⟨"v256f32", .fixed .f32 256⟩, ⟨"v512f32", .fixed .f32 512⟩,
    ⟨"v1024f32", .fixed .f32 1024⟩, ⟨"v2048f32", .fixed .f32 2048⟩,
    ⟨"v1f64", .fixed .f64 1⟩, ⟨"v2f64", .fixed .f64 2⟩, ⟨"v4f64", .fixed .f64 4⟩,
    ⟨"v8f64", .fixed .f64 8⟩, ⟨"v16f64", .fixed .f64 16⟩, ⟨"v32f64", .fixed .f64 32⟩]

def scalableEntries : List Entry :=
  [⟨"nxv1i1", .scalable .i1 1⟩, ⟨"nxv2i1", .scalable .i1 2⟩, ⟨"nxv4i1", .scalable .i1 4⟩,
    ⟨"nxv8i1", .scalable .i1 8⟩, ⟨"nxv16i1", .scalable .i1 16⟩, ⟨"nxv32i1", .scalable .i1 32⟩,
    ⟨"nxv64i1", .scalable .i1 64⟩,
    ⟨"nxv1i8", .scalable .i8 1⟩, ⟨"nxv2i8", .scalable .i8 2⟩, ⟨"nxv4i8", .scalable .i8 4⟩,
    ⟨"nxv8i8", .scalable .i8 8⟩, ⟨"nxv16i8", .scalable .i8 16⟩, ⟨"nxv32i8", .scalable .i8 32⟩,
    ⟨"nxv64i8", .scalable .i8 64⟩,
    ⟨"nxv1i16", .scalable .i16 1⟩, ⟨"nxv2i16", .scalable .i16 2⟩, ⟨"nxv4i16", .scalable .i16 4⟩,
    ⟨"nxv8i16", .scalable .i16 8⟩, ⟨"nxv16i16", .scalable .i16 16⟩, ⟨"nxv32i16", .scalable .i16 32⟩,
    ⟨"nxv1i32", .scalable .i32 1⟩, ⟨"nxv2i32", .scalable .i32 2⟩, ⟨"nxv4i32", .scalable .i32 4⟩,
    ⟨"nxv8i32", .scalable .i32 8⟩, ⟨"nxv16i32", .scalable .i32 16⟩, ⟨"nxv32i32", .scalable .i32 32⟩,
    ⟨"nxv1i64", .scalable .i64 1⟩, ⟨"nxv2i64", .scalable .i64 2⟩, ⟨"nxv4i64", .scalable .i64 4⟩,
    ⟨"nxv8i64", .scalable .i64 8⟩, ⟨"nxv16i64", .scalable .i64 16⟩, ⟨"nxv32i64", .scalable .i64 32⟩,
    ⟨"nxv1f16", .scalable .f16 1⟩, ⟨"nxv2f16", .scalable .f16 2⟩, ⟨"nxv4f16", .scalable .f16 4⟩,
    ⟨"nxv8f16", .scalable .f16 8⟩, ⟨"nxv16f16", .scalable .f16 16⟩, ⟨"nxv32f16", .scalable .f16 32⟩,
    ⟨"nxv1bf16", .scalable .bf16 1⟩, ⟨"nxv2bf16", .scalable .bf16 2⟩,
    ⟨"nxv4bf16", .scalable .bf16 4⟩, ⟨"nxv8bf16", .scalable .bf16 8⟩,
    ⟨"nxv1f32", .scalable .f32 1⟩, ⟨"nxv2f32", .scalable .f32 2⟩, ⟨"nxv4f32", .scalable .f32 4⟩,
    ⟨"nxv8f32", .scalable .f32 8⟩, ⟨"nxv16f32", .scalable .f32 16⟩,
    ⟨"nxv1f64", .scalable .f64 1⟩, ⟨"nxv2f64", .scalable .f64 2⟩, ⟨"nxv4f64", .scalable .f64 4⟩,
    ⟨"nxv8f64", .scalable .f64 8⟩]

def entries : Vector Entry 145 :=
  ⟨(⟨"invalid", .invalid⟩ :: (scalarEntries ++ fixedEntries ++ scalableEntries)).toArray, rfl⟩

def entry (m : MachineType) : Entry := entries[m.index]

def shape (m : MachineType) : Shape := m.entry.shape

def name (m : MachineType) : String := m.entry.name

def all : List MachineType := (List.finRange 144).map fun i => ⟨i.succ⟩

def invalid : MachineType := ⟨0⟩

def ofIndex? (i : Nat) : Option MachineType := if h : i < 145 then some ⟨⟨i, h⟩⟩ else none

def find? (shape : Shape) : Option MachineType := all.find? fun m => m.shape = shape

def ofName? (name : String) : Option MachineType := all.find? fun m => m.name = name

theorem isSome_find?_scalar (kind : Scalar) : (find? (.scalar kind)).isSome := by
  cases kind <;> decide

def ofScalar (kind : Scalar) : MachineType := (find? (.scalar kind)).get (isSome_find?_scalar kind)

theorem name_eq (m : MachineType) : m.name = m.shape.name := by
  have key : ∀ i : Fin 145, name ⟨i⟩ = (shape ⟨i⟩).name := by decide +kernel
  exact key m.index

theorem shape_of_find? {sh : Shape} {m : MachineType} (h : find? sh = some m) : m.shape = sh := by
  simpa using List.find?_some h

@[simp] theorem shape_ofScalar (kind : Scalar) : (ofScalar kind).shape = .scalar kind :=
  shape_of_find? (Option.some_get _).symm

theorem mem_all_iff {m : MachineType} : m ∈ all ↔ m ≠ invalid := by
  obtain ⟨i⟩ := m
  simp only [all, invalid, List.mem_map, List.mem_finRange, true_and, mk.injEq, ne_eq]
  exact ⟨fun ⟨j, hj⟩ => hj ▸ Fin.succ_ne_zero j, fun h => ⟨i.pred h, Fin.succ_pred i h⟩⟩

theorem find?_shape {m : MachineType} (h : m ≠ invalid) : find? m.shape = some m := by
  have key : ∀ i : Fin 144, find? (shape ⟨i.succ⟩) = some ⟨i.succ⟩ := by decide +kernel
  have hm : m.index ≠ 0 := fun h0 => h (by cases m; simp_all [invalid])
  simpa using key (m.index.pred hm)

end MachineType

end CodegenTypes
