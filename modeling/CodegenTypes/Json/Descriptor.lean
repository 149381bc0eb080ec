import CodegenTypes.BitSize
import CodegenTypes.FloatFormat
import CodegenTypes.Json.Record

namespace CodegenTypes

open Json

def Lanes.ofCells? : List Cell → Option Lanes
  | [.word n, .flag b] => if n < UInt32.size then some ⟨UInt32.ofNat n, b⟩ else none
  | _ => none

theorem Lanes.ofCells?_eq_some_iff {xs : List Cell} {c : Lanes} :
    ofCells? xs = some c ↔ [.word c.min.toNat, .flag c.scalable] = xs := by
  constructor
  · intro h
    unfold ofCells? at h
    split at h
    · split at h
      · next hn =>
        cases h
        rw [UInt32.toNat_ofNat_of_lt' hn]
      · cases h
    · cases h
  · rintro rfl
    rw [ofCells?, if_pos (UInt32.toNat_lt c.min), UInt32.ofNat_toNat]

def Lanes.record : Record Lanes where
  fields := [⟨"min", .word32⟩, ⟨"scalable", .flag⟩]
  cells c := [.word c.min.toNat, .flag c.scalable]
  ofCells? := ofCells?
  nodup_keys := by decide
  length_cells _ := rfl
  holds c := List.forall_mem_cons.mpr ⟨c.min.toNat_lt, List.forall_mem_singleton.mpr trivial⟩
  ofCells?_eq_some_iff := ofCells?_eq_some_iff

def BitSize.ofCells? : List Cell → Option BitSize
  | [.word n, .flag b] => if n < UInt64.size then some ⟨UInt64.ofNat n, b⟩ else none
  | _ => none

theorem BitSize.ofCells?_eq_some_iff {xs : List Cell} {z : BitSize} :
    ofCells? xs = some z ↔ [.word z.minBits.toNat, .flag z.scalable] = xs := by
  constructor
  · intro h
    unfold ofCells? at h
    split at h
    · split at h
      · next hn =>
        cases h
        rw [UInt64.toNat_ofNat_of_lt' hn]
      · cases h
    · cases h
  · rintro rfl
    rw [ofCells?, if_pos (UInt64.toNat_lt z.minBits), UInt64.ofNat_toNat]

def BitSize.record : Record BitSize where
  fields := [⟨"min_bits", .word64⟩, ⟨"scalable", .flag⟩]
  cells z := [.word z.minBits.toNat, .flag z.scalable]
  ofCells? := ofCells?
  nodup_keys := by decide
  length_cells _ := rfl
  holds z := List.forall_mem_cons.mpr ⟨z.minBits.toNat_lt, List.forall_mem_singleton.mpr trivial⟩
  ofCells?_eq_some_iff := ofCells?_eq_some_iff

def Lanes.toJson (c : Lanes) : Json := record.toJson c

def BitSize.toJson (z : BitSize) : Json := record.toJson z

def FloatFormat.toJson (f : FloatFormat) : Json := .string f.tag

end CodegenTypes
