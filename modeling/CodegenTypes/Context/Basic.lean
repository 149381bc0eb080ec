import CodegenTypes.IRType

/-! Contexts own the IR types of one compilation unit.  Each type is held once and
its position is its handle, so comparing handles compares structure.  Types are
only ever appended. -/

namespace CodegenTypes

structure Context where
  types : List IRType
  deriving DecidableEq

inductive TypeError
  | widthOutOfRange (bits : UInt32)
  | notElement (type : String)
  | noLanes
  | unknownHandle (h : Handle)
  deriving DecidableEq

namespace Context

/-- The leaves that every context holds from the start, in handle order. -/
def reserved : List IRType :=
  [.void, .integer 1, .integer 8, .integer 16, .integer 32, .integer 64, .integer 128,
    .float .half, .float .bfloat, .float .single, .float .double, .float .x87, .float .quad,
    .float .doublePair, .label, .metadata, .token]

def fresh : Context := ⟨reserved⟩

end Context

namespace Handle

def void : Handle := ⟨0⟩

def label : Handle := ⟨14⟩

def metadata : Handle := ⟨15⟩

def token : Handle := ⟨16⟩

end Handle

namespace Context

def size (Γ : Context) : Nat := Γ.types.length

def isEmpty (Γ : Context) : Bool := Γ.types.isEmpty

def get? (Γ : Context) (h : Handle) : Option IRType := Γ.types[h.index]?

def find? (Γ : Context) (t : IRType) : Option Handle := (Γ.types.idxOf? t).map Handle.mk

def element? (Γ : Context) (h : Handle) : Option Handle := (Γ.get? h).bind IRType.element?

def lanes? (Γ : Context) (h : Handle) : Option Lanes := (Γ.get? h).bind IRType.lanes?

def entries (Γ : Context) : List (Handle × IRType) :=
  Γ.types.zipIdx.map fun (t, i) => (⟨i⟩, t)

/-- Holds `t` from now on.  Which types may be held is decided by `check`. -/
def insert (Γ : Context) (t : IRType) : Handle × Context :=
  match Γ.find? t with
  | some h => (h, Γ)
  | none => (⟨Γ.size⟩, ⟨Γ.types ++ [t]⟩)

theorem get?_of_find? {Γ : Context} {t : IRType} {h : Handle} (hf : Γ.find? t = some h) :
    Γ.get? h = some t := by
  simp only [find?, Option.map_eq_some_iff] at hf
  obtain ⟨i, hi, rfl⟩ := hf
  have := List.idxOf?_eq_some_iff.mp hi
  simp only [get?]
  grind

theorem find?_eq_none_iff {Γ : Context} {t : IRType} : Γ.find? t = none ↔ t ∉ Γ.types := by
  simp [find?, List.idxOf?_eq_none_iff]

theorem types_insert (Γ : Context) (t : IRType) :
    (Γ.insert t).2.types = if t ∈ Γ.types then Γ.types else Γ.types ++ [t] := by
  unfold insert
  split
  · next h => rw [if_pos (List.mem_of_getElem? (get?_of_find? h))]
  · next h => rw [if_neg (find?_eq_none_iff.mp h)]

theorem get?_insert (Γ : Context) (t : IRType) : (Γ.insert t).2.get? (Γ.insert t).1 = some t := by
  unfold insert
  split
  · next h => exact get?_of_find? h
  · simp [get?, size]

end Context

end CodegenTypes
