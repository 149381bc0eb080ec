import CodegenTypes.MachineType.Derived
import CodegenTypes.Proofs.Form.Entry

namespace CodegenTypes

theorem Lanes.fitsVector_of_halve {c d : Lanes} (h : c.halve = .ok d) (hc : c.fitsVector) :
    d.fitsVector := by
  have := (divide_eq_ok_iff.mp h).2.2
  rw [fitsVector_iff] at hc ⊢
  exact Nat.pos_of_mul_pos_right (this ▸ hc)

namespace Form

def isNumber : Form → Bool
  | number _ => true
  | _ => false

def notVector : Form → ValueTypeError
  | invalid => .invalid
  | F => .notVector F.name

def elementCount (F : Form) : Except ValueTypeError Lanes :=
  match F.lanes? with
  | some lanes => .ok lanes
  | none => .error F.notVector

def integer (bits : UInt32) : Except ValueTypeError Form :=
  if h : IRType.InRange bits then .ok (.number (.integer bits h))
  else .error (.type (.widthOutOfRange bits))

def lanesOf (F : Form) (lanes : Lanes) : Except ValueTypeError Form :=
  match F with
  | number element =>
    if h : lanes.fitsVector then .ok (.vector element lanes h) else .error (.type .noLanes)
  | F => .error (.notElement F.name)

def widen (F : Form) : Except ValueTypeError Form := do
  let lanes ← F.elementCount
  match F.element? with
  | some (.integer bits _) =>
    let element ← integer (bits * 2)
    element.lanesOf lanes
  | _ => .error (.notIntegerVector F.name)

def half (F : Form) : Except ValueTypeError Form := do
  let lanes ← F.elementCount
  match lanes.halve with
  | .ok lanes => F.scalar.lanesOf lanes
  | .error e => .error (.lanes e)

def toInteger (F : Form) : Except ValueTypeError Form := do
  let lanes ← F.elementCount
  match F.element? with
  | some (.integer _ _) => .ok F
  | some (.float format) =>
    let element ← integer format.bits
    element.lanesOf lanes
  | none => .error (.noIntegerCounterpart F.name)

def withLanes (F : Form) (lanes : Lanes) : Except ValueTypeError Form :=
  if F.isValid then F.scalar.lanesOf lanes else .error .invalid

def withElement (F G : Form) : Except ValueTypeError Form := do
  let lanes ← F.elementCount
  G.lanesOf lanes

def double (F : Form) : Except ValueTypeError Form := do
  let lanes ← F.elementCount
  match lanes.double with
  | .ok lanes => F.withLanes lanes
  | .error e => .error (.lanes e)

variable {bits : UInt32} {k : Scalar} {e : Element}

theorem integer_of_integer? (h : Scalar.integer? bits = some k) (hk : k.element? = some e) :
    integer bits = .ok (.number e) := by
  have hb := Scalar.inRange_of_integer? h
  have := Scalar.kind?_eq_some_iff.mp (show (Element.integer bits hb).kind? = some k from h)
  rw [integer, dif_pos hb, Option.some.inj (hk.symm.trans this)]

theorem eq_number_of_integer {F : Form} (h : integer bits = .ok F) : ∃ e, F = .number e := by
  rw [integer] at h
  split at h
  · cases h; exact ⟨_, rfl⟩
  · cases h

theorem lanesOf_number {c : Lanes} (hc : c.fitsVector) :
    (number e).lanesOf c = .ok (.vector e c hc) := dif_pos hc

theorem withLanes_of_element? {F : Form} {c : Lanes} (h : F.element? = some e) :
    F.withLanes c = (number e).lanesOf c := by
  cases F with
  | invalid => cases h
  | mark k hk => cases h
  | number d => cases h; rfl
  | vector d c' hc => cases h; rfl

theorem withLanes_eq_ok_iff {F G : Form} {c : Lanes} :
    F.withLanes c = .ok G ↔ ∃ e hc, F.element? = some e ∧ G = .vector e c hc := by
  cases he : F.element? with
  | none =>
    cases F with
    | invalid => simp [withLanes, isValid]
    | mark k hk => simp [withLanes, isValid, scalar, lanesOf]
    | number e => cases he
    | vector e d hd => cases he
  | some e =>
    rw [withLanes_of_element? he, lanesOf]
    split
    · next hc => simp [hc, eq_comm]
    · next hc => simp [hc]

end Form

/-- How the table answers where a form is derived: with the entry of the form, with an error
that names a form which it lacks, or with another error, and then no entry is derived. -/
inductive TableAnswer : Except ValueTypeError MachineType → Except ValueTypeError Form → Prop
  | entry (m : MachineType) : TableAnswer (.ok m) (.ok m.form)
  | missing {F : Form} (hF : F.machine? = none) :
      TableAnswer (.error (.notCanonical F.name)) (.ok F)
  | refused {e : ValueTypeError} {r : Except ValueTypeError Form}
      (he : ∀ name, e ≠ .notCanonical name) (hr : ∀ m : MachineType, r ≠ .ok m.form) :
      TableAnswer (.error e) r

theorem MachineType.elementCount_form (m : MachineType) :
    m.form.elementCount = m.elementCount := by
  have hm := m.hasShape_form
  have hn := m.name_form
  rw [elementCount, vectorParts, ← hn]
  generalize m.form = F at hm hn ⊢
  generalize m.shape = sh at hm
  cases hm <;> rfl

theorem TableAnswer.ok_iff {a : Except ValueTypeError MachineType}
    {r : Except ValueTypeError Form} {m : MachineType} (h : TableAnswer a r) :
    a = .ok m ↔ r = .ok m.form := by
  cases h with
  | entry n =>
    rw [Except.ok.injEq, Except.ok.injEq]
    exact MachineType.form_injective.eq_iff.symm
  | missing hF =>
    constructor
    · nofun
    · intro h
      rw [Except.ok.inj h, Form.machine?_form] at hF
      cases hF
  | refused he hr =>
    constructor
    · nofun
    · exact fun h => absurd h (hr m)

namespace MachineType

variable {m r : MachineType} {k : Scalar} {e : Element} {c : Lanes}

theorem vectorParts_cases (m : MachineType) :
    (∃ k e c hc, k.element? = some e ∧ m.vectorParts = .ok (k, c) ∧ m.form = .vector e c hc) ∨
      m.vectorParts = .error m.form.notVector ∧ m.form.lanes? = none := by
  have hm := m.hasShape_form
  have hn := m.name_form
  rw [vectorParts]
  generalize m.shape = sh at hm
  generalize m.form = F at hm hn ⊢
  cases hm with
  | invalid => exact .inr ⟨rfl, rfl⟩
  | mark hk => exact .inr ⟨by rw [← hn]; rfl, rfl⟩
  | number hk => exact .inr ⟨by rw [← hn]; rfl, rfl⟩
  | @vector k e c hk hc => exact .inl ⟨k, e, c, hc, hk, rfl, rfl⟩

theorem vectorParts_bind {next : Scalar × Lanes → Except ValueTypeError MachineType}
    {nextForm : Lanes → Except ValueTypeError Form}
    (h : ∀ k e c hc, k.element? = some e → m.form = .vector e c hc →
      TableAnswer (next (k, c)) (nextForm c)) :
    TableAnswer (m.vectorParts >>= next) (m.form.elementCount >>= nextForm) := by
  rcases vectorParts_cases m with ⟨k, e, c, hc, hk, hp, hF⟩ | ⟨hp, hl⟩
  · rw [hp, Form.elementCount, hF]
    exact h k e c hc hk hF
  · rw [hp, Form.elementCount, hl]
    refine .refused ?_ nofun
    cases m.form <;> nofun

theorem lookupVector_eq_ok_iff : lookupVector k c = .ok m ↔ m.shape = .vector k c := by
  rw [lookupVector]
  constructor
  · intro h
    split at h
    · next hf =>
      cases h
      exact shape_of_find? hf
    · cases h
  · intro h
    have hm : m ≠ .invalid := by
      rintro rfl
      cases h
    rw [← h, find?_shape hm]

theorem lookupVector_answer (hk : k.element? = some e) (hc : c.fitsVector) :
    TableAnswer (lookupVector k c) (.ok (.vector e c hc)) := by
  have hm := Form.machine?_vector (e := e) hc
  rw [Scalar.kind?_eq_some_iff.mpr hk, Option.bind_some] at hm
  rw [lookupVector, ← hm, Scalar.name_of_element? hk]
  cases hv : (Form.vector e c hc).machine? with
  | some m =>
    rw [← Form.machine?_eq_some_iff.mp hv]
    exact .entry m
  | none => exact .missing hv

theorem integer_bind_lanesOf_ne {bits : UInt32} (h : Scalar.integer? bits = none)
    (m : MachineType) : (Form.integer bits >>= (·.lanesOf c)) ≠ .ok m.form := by
  intro hm
  rw [Form.integer] at hm
  split at hm
  · next hb =>
    change (Form.number (.integer bits hb)).lanesOf c = _ at hm
    rw [Form.lanesOf] at hm
    split at hm
    · next hc =>
      have hk : (Element.integer bits hb).kind? = none := h
      have hv := Form.machine?_vector (e := .integer bits hb) hc
      rw [Except.ok.inj hm, Form.machine?_form, hk] at hv
      cases hv
    · cases hm
  · cases hm

theorem lookupInteger_answer {bits : UInt32} {refusal : ValueTypeError} (hc : c.fitsVector)
    (hr : ∀ name, refusal ≠ .notCanonical name) :
    TableAnswer
      (match Scalar.integer? bits with
        | some kind => lookupVector kind c
        | none => .error refusal)
      (Form.integer bits >>= (·.lanesOf c)) := by
  cases hw : Scalar.integer? bits with
  | some w =>
    obtain ⟨d, hd⟩ := Scalar.exists_element? hw
    have hF : (Form.integer bits >>= (·.lanesOf c)) = .ok (.vector d c hc) := by
      rw [Form.integer_of_integer? hw hd]
      exact Form.lanesOf_number hc
    rw [hF]
    exact lookupVector_answer hd hc
  | none => exact .refused hr (integer_bind_lanesOf_ne hw)

theorem widen_answer (m : MachineType) : TableAnswer m.widen m.form.widen := by
  apply vectorParts_bind
  intro k e c hc hk hF
  simp only [Scalar.isInteger_eq, hk, Option.any_some, hF, Form.element?]
  cases e with
  | float f => exact .refused (by simp) (by simp)
  | integer bits hb =>
    simp only [Element.isInteger, if_true, Scalar.wider?, Scalar.isInteger_eq, Scalar.bits?_eq, hk,
      Option.any_some, Option.map_some, Option.bind_some, Element.bits]
    exact lookupInteger_answer hc (by simp)

theorem half_answer (m : MachineType) : TableAnswer m.half m.form.half := by
  apply vectorParts_bind
  intro k e c hc hk hF
  simp only
  cases hh : c.halve with
  | error e => exact .refused nofun nofun
  | ok d =>
    have hd := Lanes.fitsVector_of_halve hh hc
    rw [hF]
    change TableAnswer (lookupVector k d) ((Form.number e).lanesOf d)
    rw [Form.lanesOf_number hd]
    exact lookupVector_answer hk hd

theorem toInteger_answer (m : MachineType) : TableAnswer m.toInteger m.form.toInteger := by
  apply vectorParts_bind
  intro k e c hc hk hF
  simp only [Scalar.toInteger?, Scalar.isInteger_eq, Scalar.isFloat_eq, Scalar.bits?_eq, hk,
    Option.any_some, Option.map_some, Option.bind_some, hF, Form.element?]
  cases e with
  | integer bits hb => exact lookupVector_answer hk hc
  | float f => exact lookupInteger_answer hc (by simp)

theorem withLanes_answer (hn : m.kind?.any Scalar.isNumeric) (hc : c.fitsVector) :
    TableAnswer (m.withLanes c) (m.form.withLanes c) := by
  obtain ⟨k, hk, hn⟩ := (Option.any_eq_true _ _).mp hn
  rw [Scalar.isNumeric, Scalar.isInteger_eq, Scalar.isFloat_eq] at hn
  cases he : k.element? with
  | none => rw [he] at hn; cases hn
  | some e =>
    have hel : m.form.element? = some e := by
      rw [m.hasShape_form.element?, show m.shape.kind? = some k from hk, Option.bind_some, he]
    rw [withLanes, hk, Form.withLanes_of_element? hel, Form.lanesOf_number hc]
    exact lookupVector_answer he hc

theorem withLanes_ok_iff : m.withLanes c = .ok r ↔ m.form.withLanes c = .ok r.form := by
  rw [Form.withLanes_eq_ok_iff, m.hasShape_form.element?, withLanes, kind?]
  cases m.shape.kind? with
  | none => simp
  | some k =>
    rw [Option.bind_some, ← shape_eq_vector_iff]
    exact lookupVector_eq_ok_iff

end MachineType

end CodegenTypes
