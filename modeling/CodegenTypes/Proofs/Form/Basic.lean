import CodegenTypes.MachineType.Basic
import CodegenTypes.Proofs.Context.WellFormed

/-! Forms: what value types stand for, apart from the contexts that hold them.  The
table answers for some forms; a context can hold the others. -/

namespace CodegenTypes

/-- A number type, which is what fills the lanes of a vector. -/
inductive Element
  | integer (bits : UInt32) (inRange : IRType.InRange bits)
  | float (format : FloatFormat)
  deriving DecidableEq

namespace Element

def irType : Element → IRType
  | integer bits _ => .integer bits
  | float format => .float format

def bits : Element → UInt32
  | integer bits _ => bits
  | float format => format.bits

def name : Element → String
  | integer bits _ => "i" ++ Decimal.text bits.toNat
  | float format => (Scalar.ofFormat format).name

def isInteger : Element → Bool
  | integer _ _ => true
  | float _ => false

def isFloat : Element → Bool
  | integer _ _ => false
  | float _ => true

theorem inRange_bits (e : Element) : IRType.InRange e.bits := by
  cases e with
  | integer bits hb => exact hb
  | float f => cases f <;> decide

def kind? : Element → Option Scalar
  | integer bits _ => Scalar.integer? bits
  | float format => some (.ofFormat format)

end Element

namespace Scalar

def element? : Scalar → Option Element
  | i1 => some (.integer 1 (by decide))
  | i8 => some (.integer 8 (by decide))
  | i16 => some (.integer 16 (by decide))
  | i32 => some (.integer 32 (by decide))
  | i64 => some (.integer 64 (by decide))
  | i128 => some (.integer 128 (by decide))
  | f16 => some (.float .half)
  | bf16 => some (.float .bfloat)
  | f32 => some (.float .single)
  | f64 => some (.float .double)
  | f80 => some (.float .x87)
  | f128 => some (.float .quad)
  | ppcf128 => some (.float .doublePair)
  | other | glue | isVoid | untyped | token | metadata => none

variable {k : Scalar} {e : Element}

theorem kind?_eq_some_iff : e.kind? = some k ↔ k.element? = some e := by
  constructor
  · intro h
    cases e with
    | integer bits hb =>
      obtain ⟨hi, hw⟩ := Scalar.integer?_eq_some_iff.mp h
      cases k <;> cases hi <;> cases hw <;> rfl
    | float f =>
      cases h
      cases f <;> rfl
  · intro h
    cases k <;> cases h <;> rfl

theorem inRange_of_integer? {bits : UInt32} (h : integer? bits = some k) :
    IRType.InRange bits := by
  obtain ⟨hi, hb⟩ := integer?_eq_some_iff.mp h
  cases k <;> cases hi <;> cases hb <;> decide

theorem exists_element? {bits : UInt32} (h : integer? bits = some k) : ∃ e, k.element? = some e :=
  ⟨_, kind?_eq_some_iff.mp (show (Element.integer bits (inRange_of_integer? h)).kind? = _ from h)⟩

theorem name_of_element? (h : k.element? = some e) : k.name = e.name := by
  cases k <;> cases h <;> rfl

theorem bits?_eq (k : Scalar) : k.bits? = k.element?.map Element.bits := by cases k <;> rfl

theorem isInteger_eq (k : Scalar) : k.isInteger = k.element?.any Element.isInteger := by
  cases k <;> rfl

theorem isFloat_eq (k : Scalar) : k.isFloat = k.element?.any Element.isFloat := by
  cases k <;> rfl

end Scalar

theorem Element.exists_reserved {k : Scalar} {e : Element} (h : e.kind? = some k) :
    ∃ j, Context.fresh.get? j = some e.irType := by
  have hmem : e.irType ∈ Context.reserved := by
    have := Scalar.kind?_eq_some_iff.mp h
    cases k <;> cases this <;> decide
  obtain ⟨i, hi⟩ := List.mem_iff_getElem?.mp hmem
  exact ⟨⟨i⟩, hi⟩

inductive Form
  | invalid
  | mark (kind : Scalar) (plain : kind.element? = none)
  | number (element : Element)
  | vector (element : Element) (lanes : Lanes) (fits : lanes.fitsVector)
  deriving DecidableEq

namespace Form

def name : Form → String
  | invalid => "invalid"
  | mark kind _ => kind.name
  | number element => element.name
  | vector element lanes _ => lanes.spell element.name

def isValid (F : Form) : Bool := F ≠ invalid

def lanes? : Form → Option Lanes
  | vector _ lanes _ => some lanes
  | _ => none

def element? : Form → Option Element
  | number element | vector element _ _ => some element
  | _ => none

/-- The element of a vector, and any other form itself. -/
def scalar : Form → Form
  | vector element _ _ => number element
  | F => F

def shape? : Form → Option Shape
  | invalid => some .invalid
  | mark kind _ => some (.scalar kind)
  | number element => element.kind?.map .scalar
  | vector element lanes _ => element.kind?.map (.vector · lanes)

def machine? : Form → Option MachineType
  | invalid => some .invalid
  | F => F.shape?.bind MachineType.find?

end Form

inductive Form.HasShape : Form → Shape → Prop
  | invalid : HasShape .invalid .invalid
  | mark {k : Scalar} (h : k.element? = none) : HasShape (.mark k h) (.scalar k)
  | number {k : Scalar} {e : Element} (h : k.element? = some e) : HasShape (.number e) (.scalar k)
  | vector {k : Scalar} {e : Element} {c : Lanes} (h : k.element? = some e) (hc : c.fitsVector) :
      HasShape (.vector e c hc) (.vector k c)

def Shape.form? : Shape → Option Form
  | invalid => some .invalid
  | scalar kind =>
    match h : kind.element? with
    | some element => some (.number element)
    | none => some (.mark kind h)
  | vector kind lanes =>
    if h : lanes.fitsVector then kind.element?.map (.vector · lanes h) else none

variable {sh : Shape} {F G : Form} {m : MachineType}

theorem Form.hasShape_of_shape? {sh : Shape} (h : F.shape? = some sh) : F.HasShape sh := by
  cases F with
  | invalid => cases h; exact .invalid
  | mark k hk => cases h; exact .mark hk
  | number e =>
    obtain ⟨k, hk, rfl⟩ := Option.map_eq_some_iff.mp h
    exact .number (Scalar.kind?_eq_some_iff.mp hk)
  | vector e c hc =>
    obtain ⟨k, hk, rfl⟩ := Option.map_eq_some_iff.mp h
    exact .vector (Scalar.kind?_eq_some_iff.mp hk) hc

theorem Shape.form?_eq_some_iff : sh.form? = some F ↔ F.shape? = some sh := by
  constructor
  · intro h
    cases sh with
    | invalid => cases h; rfl
    | scalar kind =>
      simp only [form?] at h
      split at h
      · next e he => cases h; simp [Form.shape?, Scalar.kind?_eq_some_iff.mpr he]
      · cases h; rfl
    | vector kind lanes =>
      simp only [form?] at h
      split at h
      · obtain ⟨e, he, rfl⟩ := Option.map_eq_some_iff.mp h
        simp [Form.shape?, Scalar.kind?_eq_some_iff.mpr he]
      · cases h
  · intro h
    cases F with
    | invalid => cases h; rfl
    | mark kind hk =>
      cases h
      simp only [form?]
      split
      · simp_all
      · rfl
    | number e =>
      obtain ⟨k, hk, rfl⟩ := Option.map_eq_some_iff.mp h
      simp only [form?]
      split <;> simp_all [Scalar.kind?_eq_some_iff]
    | vector e c hc =>
      obtain ⟨k, hk, rfl⟩ := Option.map_eq_some_iff.mp h
      simp [form?, hc, Scalar.kind?_eq_some_iff.mp hk]

namespace MachineType

theorem isSome_form?_shape (m : MachineType) : m.shape.form?.isSome := by
  have key : ∀ i : Fin 145, (shape ⟨i⟩).form?.isSome := by decide +kernel
  exact key m.index

def form (m : MachineType) : Form := m.shape.form?.get (isSome_form?_shape m)

theorem shape?_form (m : MachineType) : m.form.shape? = some m.shape :=
  Shape.form?_eq_some_iff.mp (Option.some_get _).symm

theorem form_eq_iff : m.form = F ↔ F.shape? = some m.shape := by
  rw [← Shape.form?_eq_some_iff]
  constructor
  · rintro rfl
    exact (Option.some_get _).symm
  · intro h
    simp [form, h]

end MachineType

end CodegenTypes
