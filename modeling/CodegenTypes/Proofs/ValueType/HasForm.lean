import CodegenTypes.Proofs.Except
import CodegenTypes.Proofs.Form.Derived
import CodegenTypes.Proofs.Form.Holding
import CodegenTypes.Proofs.Session

namespace CodegenTypes

namespace ExtendedType

variable {s : Session} {x : ExtendedType} {F : Form}

theorem irType_of_get? {t : IRType} (h : (s.context x.owner).get? x.handle = some t) :
    x.irType s = .ok t := by
  rw [irType, Context.get, h]
  rfl

theorem irType_of_holds (hx : (s.context x.owner).Holds x.handle F) :
    ∃ t, x.irType s = .ok t ∧ t.lanes? = F.lanes? := by
  cases hx with
  | @mark k t hk ht hh =>
    refine ⟨t, irType_of_get? hh, ?_⟩
    cases k <;> cases ht <;> rfl
  | @number e hh =>
    refine ⟨_, irType_of_get? hh, ?_⟩
    cases e <;> rfl
  | vector hc hj hh => exact ⟨_, irType_of_get? hh, rfl⟩

theorem scalarIRType_of_holds (hx : (s.context x.owner).Holds x.handle F)
    (he : F.machine? = none) : ∃ e, F.element? = some e ∧ x.scalarIRType s = .ok e.irType := by
  cases hx with
  | mark hk ht hh => rw [Form.machine?_mark] at he; cases he
  | @number e hh =>
    refine ⟨e, rfl, ?_⟩
    rw [scalarIRType, irType_of_get? hh]
    cases e <;> rfl
  | @vector j e c hc hj hh =>
    refine ⟨e, rfl, ?_⟩
    rw [scalarIRType, irType_of_get? hh]
    change ((s.context x.owner).get j).mapError Failure.fault = _
    rw [Context.get, hj]
    rfl

end ExtendedType

namespace ValueType

/-- What a value type stands for.  An extended type stands for a form that the
table lacks. -/
inductive HasForm (s : Session) : ValueType → Form → Prop
  | simple (m : MachineType) : HasForm s (simple m) m.form
  | extended {x : ExtendedType} {F : Form} (hx : (s.context x.owner).Holds x.handle F)
      (he : F.machine? = none) : HasForm s (extended x) F

/-- The value types that may be used with a context. -/
def BelongsTo (k : ContextId) : ValueType → Prop
  | simple _ => True
  | extended x => x.owner = k

variable {s t : Session} {k : ContextId} {v w : ValueType} {F G : Form}

theorem exists_belongsTo (v : ValueType) : ∃ k, v.BelongsTo k := by
  cases v with
  | simple m => exact ⟨⟨0⟩, trivial⟩
  | extended x => exact ⟨x.owner, rfl⟩

theorem hasForm_ofHandle {h : Handle} (hF : (s.context k).Holds h F) :
    HasForm s (ofHandle k h s) F := by
  rw [ofHandle, hF.ofIR]
  cases he : F.machine? with
  | some m =>
    rw [← Form.machine?_eq_some_iff.mp he]
    exact .simple m
  | none => exact .extended hF he

theorem belongsTo_ofHandle {h : Handle} : (ofHandle k h s).BelongsTo k := by
  rw [ofHandle]
  split
  · trivial
  · rfl

theorem hasForm_simple_iff {m : MachineType} : HasForm s (simple m) F ↔ F.machine? = some m := by
  rw [Form.machine?_eq_some_iff]
  constructor
  · intro h
    cases h
    rfl
  · intro h
    rw [← h]
    exact .simple m

namespace HasForm

theorem mono (hle : s ≤ t) (hv : HasForm s v F) : HasForm t v F := by
  cases hv with
  | simple m => exact .simple m
  | extended hx he => exact .extended (hx.mono (hle _)) he

theorem value_unique (hs : s.WellFormed) (hv : HasForm s v F) (hw : HasForm s w F)
    (hvk : v.BelongsTo k) (hwk : w.BelongsTo k) : v = w := by
  cases hv with
  | simple m =>
    cases w with
    | simple n =>
      rw [MachineType.form_injective ((Form.machine?_eq_some_iff.mp (hasForm_simple_iff.mp hw)))]
    | extended y =>
      cases hw with
      | extended _ he => rw [Form.machine?_form] at he; cases he
  | @extended x F hx he =>
    cases hw with
    | simple m => rw [Form.machine?_form] at he; cases he
    | @extended y F hy _ =>
      have hxy : y.owner = x.owner := hwk.trans hvk.symm
      rw [hxy] at hy
      have := (hs x.owner).handle_unique hx hy
      cases x
      cases y
      simp_all

theorem isValid (hv : HasForm s v F) : v.isValid = F.isValid := by
  cases hv with
  | simple m => exact m.isValid_form.symm
  | extended _ he =>
    cases F with
    | invalid => cases he
    | _ => rfl

theorem name (hs : s.WellFormed) (hv : HasForm s v F) : v.name s = .ok F.name := by
  cases hv with
  | simple m => rw [ValueType.name, m.name_form]
  | @extended x F hx he => exact hx.valueTypeName (hs x.owner) he

theorem isInteger (hv : HasForm s v F) :
    v.isInteger s = .ok (F.element?.any Element.isInteger) := by
  cases hv with
  | simple m => rw [ValueType.isInteger, m.isInteger_form]
  | extended hx he =>
    obtain ⟨e, hel, ht⟩ := ExtendedType.scalarIRType_of_holds hx he
    rw [ValueType.isInteger, ht, hel]
    cases e <;> rfl

theorem isFloat (hv : HasForm s v F) : v.isFloat s = .ok (F.element?.any Element.isFloat) := by
  cases hv with
  | simple m => rw [ValueType.isFloat, m.isFloat_form]
  | extended hx he =>
    obtain ⟨e, hel, ht⟩ := ExtendedType.scalarIRType_of_holds hx he
    rw [ValueType.isFloat, ht, hel]
    cases e <;> rfl

theorem scalarBits? (hv : HasForm s v F) :
    v.scalarBits? s = .ok (F.element?.map Element.bits) := by
  cases hv with
  | simple m => rw [ValueType.scalarBits?, m.scalarBits?_form]
  | extended hx he =>
    obtain ⟨e, hel, ht⟩ := ExtendedType.scalarIRType_of_holds hx he
    rw [ValueType.scalarBits?, ht, hel]
    cases e <;> rfl

theorem inRange_of_scalarBits? {bits : UInt32} (hv : HasForm s v F)
    (hb : v.scalarBits? s = .ok (some bits)) : IRType.InRange bits := by
  rw [hv.scalarBits?, Except.ok.injEq, Option.map_eq_some_iff] at hb
  obtain ⟨e, -, rfl⟩ := hb
  exact e.inRange_bits

theorem isVector (hv : HasForm s v F) : v.isVector s = .ok F.lanes?.isSome := by
  cases hv with
  | simple m => rw [ValueType.isVector, m.isVector_eq, m.lanes?_form]
  | extended hx he =>
    obtain ⟨t, ht, hl⟩ := ExtendedType.irType_of_holds hx
    rw [ValueType.isVector, ht, ← hl, ← t.isVector_eq]
    rfl

theorem isScalableVector (hv : HasForm s v F) :
    v.isScalableVector s = .ok (F.lanes?.any Lanes.scalable) := by
  cases hv with
  | simple m => rw [ValueType.isScalableVector, m.isScalableVector_eq, m.lanes?_form]
  | extended hx he =>
    obtain ⟨t, ht, hl⟩ := ExtendedType.irType_of_holds hx
    rw [ValueType.isScalableVector, ht, ← hl, ← t.isScalableVector_eq]
    rfl

theorem isFixedVector (hv : HasForm s v F) :
    v.isFixedVector s = .ok (F.lanes?.any Lanes.isFixed) := by
  rw [ValueType.isFixedVector, hv.isVector, hv.isScalableVector]
  cases F.lanes? <;> rfl

theorem isElement (hv : HasForm s v F) : v.isElement s = .ok F.isNumber := by
  rw [ValueType.isElement, hv.isVector, hv.isInteger, hv.isFloat]
  cases F with
  | number e => cases e <;> rfl
  | _ => rfl

theorem notVector {α : Type} (hs : s.WellFormed) (hv : HasForm s v F) :
    (v.notVector s : Except Failure α) = .error (.rejected F.notVector) := by
  rw [ValueType.notVector, hv.isValid, hv.name hs]
  cases F <;> rfl

theorem elementCount (hs : s.WellFormed) (hv : HasForm s v F) :
    v.elementCount s = F.elementCount.mapError .rejected := by
  cases hv with
  | simple m => rw [ValueType.elementCount, m.elementCount_form]
  | extended hx he =>
    obtain ⟨t, ht, hl⟩ := ExtendedType.irType_of_holds hx
    have hn := notVector (α := Lanes) hs (.extended hx he)
    simp only [ValueType.elementCount, ht, except_ok_bind, Form.elementCount, ← hl]
    cases t.lanes? with
    | some c => rfl
    | none => exact hn

theorem lanes? (hs : s.WellFormed) (hv : HasForm s v F) : v.lanes? s = .ok F.lanes? := by
  rw [ValueType.lanes?, hv.elementCount hs, Form.elementCount]
  cases F.lanes? <;> rfl

theorem elementType (hs : s.WellFormed) (hv : HasForm s v F) :
    v.elementType s =
      if F.lanes?.isSome then v.scalarType s else .error (.rejected F.notVector) := by
  rw [ValueType.elementType, hv.isVector, hv.notVector hs]
  rfl

theorem scalarType (hv : HasForm s v F) (hk : v.BelongsTo k) :
    ∃ w, v.scalarType s = .ok w ∧ HasForm s w F.scalar ∧ w.BelongsTo k := by
  cases hv with
  | simple m =>
    refine ⟨.simple m.scalarType, rfl, ?_, trivial⟩
    rw [← m.form_scalarType]
    exact .simple _
  | @extended x F hx he =>
    cases hx with
    | mark hk' ht hh => rw [Form.machine?_mark] at he; cases he
    | @number e hh =>
      refine ⟨.extended x, ?_, .extended (.number hh) he, hk⟩
      rw [ValueType.scalarType, ExtendedType.irType_of_get? hh]
      cases e <;> rfl
    | @vector j e c hc hj hh =>
      refine ⟨ofHandle x.owner j s, ?_, hasForm_ofHandle (.number hj), ?_⟩
      · rw [ValueType.scalarType, ExtendedType.irType_of_get? hh]
        rfl
      · rw [← show x.owner = k from hk]
        exact belongsTo_ofHandle

end HasForm

end ValueType

end CodegenTypes
