import CodegenTypes.Proofs.Form.Refusal
import CodegenTypes.Proofs.ValueType.Derived

namespace CodegenTypes

namespace ValueType

/-- The scalars that fill the lanes of vectors. -/
structure IsNumber (v : ValueType) (s : Session) : Prop where
  isVector : v.isVector s = .ok false
  numeric : v.isInteger s = .ok true ∨ v.isFloat s = .ok true

structure HasLanes (v : ValueType) (c : Lanes) (w : Nat) (s : Session) : Prop where
  isVector : v.isVector s = .ok true
  elementCount : v.elementCount s = .ok c
  scalarBits : ∃ bits, v.scalarBits? s = .ok (some bits) ∧ bits.toNat = w

structure IntegerLanes (v : ValueType) (c : Lanes) (w : Nat) (s : Session) : Prop
    extends HasLanes v c w s where
  isInteger : v.isInteger s = .ok true

/-- A vector of `e`.  It is an entry where the table has the vector, and nowhere else. -/
structure IsVectorOf (v e : ValueType) (c : Lanes) (s : Session) : Prop where
  isVector : v.isVector s = .ok true
  scalarType : v.scalarType s = .ok e
  elementType : v.elementType s = .ok e
  elementCount : v.elementCount s = .ok c
  entry : ∀ m, v = .simple m ↔ ∃ kind, e = .simple (.ofScalar kind) ∧ m.shape = .vector kind c

inductive Laneless (v : ValueType) (s : Session) : ValueTypeError → Prop
  | invalid (h : v = .simple .invalid) : Laneless v s .invalid
  | scalar {text : String} (h : v ≠ .simple .invalid) (hv : v.isVector s = .ok false)
      (hn : v.name s = .ok text) : Laneless v s (.notVector text)

inductive VectorRefused (e : ValueType) (c : Lanes) (s : Session) : ValueTypeError → Prop
  | notElement {text : String}
      (h : e.isVector s = .ok true ∨ e.isInteger s = .ok false ∧ e.isFloat s = .ok false)
      (hn : e.name s = .ok text) : VectorRefused e c s (.notElement text)
  | noLanes (h : e.IsNumber s) (hc : c.min = 0) : VectorRefused e c s (.type .noLanes)

inductive WidenRefused (v : ValueType) (s : Session) : ValueTypeError → Prop
  | laneless {r : ValueTypeError} (h : v.Laneless s r) : WidenRefused v s r
  | float {text : String} (h : v.isVector s = .ok true) (hf : v.isFloat s = .ok true)
      (hn : v.name s = .ok text) : WidenRefused v s (.notIntegerVector text)
  | tooWide {c : Lanes} {w : Nat} {bits : UInt32} (h : v.IntegerLanes c w s)
      (hw : 16777216 < 2 * w) (hb : bits.toNat = 2 * w) :
      WidenRefused v s (.type (.widthOutOfRange bits))

variable {s t : Session} {k : ContextId} {v w r : ValueType} {F : Form} {c : Lanes} {n : Nat}
  {e : ValueTypeError} {f : Failure}

theorem Laneless.ne (h : v.Laneless s e) (name : String) :
    e ≠ .noIntegerCounterpart name ∧ e ≠ .noWiderInteger name ∧ e ≠ .notCanonical name := by
  cases h <;> exact ⟨nofun, nofun, nofun⟩

theorem WidenRefused.ne (h : v.WidenRefused s e) (name : String) :
    e ≠ .noWiderInteger name ∧ e ≠ .notCanonical name := by
  cases h with
  | laneless h => exact (h.ne name).2
  | float => exact ⟨nofun, nofun⟩
  | tooWide => exact ⟨nofun, nofun⟩

theorem hasForm_ofScalar {kind : Scalar} {d : Element} (hd : kind.element? = some d) :
    (simple (.ofScalar kind)).HasForm s (.number d) :=
  hasForm_simple_iff.mpr (Form.machine?_eq_some_iff.mpr (MachineType.form_ofScalar hd))

theorem hasForm_of_get? {h j : Handle} {d : Element} (hc : c.fitsVector)
    (hj : (s.context k).get? j = some d.irType) (hh : (s.context k).get? h = some (.vector j c))
    (he : (Form.vector d c hc).machine? = none) :
    (extended ⟨k, h⟩).HasForm s (.vector d c hc) :=
  .extended (.vector hc hj hh) he

namespace HasForm

theorem isNumber_iff (hv : HasForm s v F) : v.IsNumber s ↔ F.isNumber = true := by
  constructor
  · rintro ⟨hvec, hnum⟩
    rw [hv.isVector] at hvec
    rw [hv.isInteger, hv.isFloat] at hnum
    cases F with
    | number e => rfl
    | vector e c hc => cases hvec
    | _ => simp [Form.element?] at hnum
  · intro h
    cases F with
    | number e =>
      refine ⟨hv.isVector, ?_⟩
      rw [hv.isInteger, hv.isFloat]
      cases e with
      | integer bits hb => exact .inl rfl
      | float f => exact .inr rfl
    | _ => cases h

theorem not_number_iff (hv : HasForm s v F) :
    (v.isVector s = .ok true ∨ v.isInteger s = .ok false ∧ v.isFloat s = .ok false) ↔
      F.isNumber = false := by
  rw [hv.isVector, hv.isInteger, hv.isFloat]
  cases F with
  | number e =>
    cases e <;> simp [Form.isNumber, Form.lanes?, Form.element?, Element.isInteger, Element.isFloat]
  | _ => simp [Form.isNumber, Form.lanes?, Form.element?]

theorem eq_simple_iff (hs : s.WellFormed) (hv : HasForm s v F) (hk : v.BelongsTo k)
    {m : MachineType} : v = .simple m ↔ F.machine? = some m := by
  constructor
  · rintro rfl
    exact hasForm_simple_iff.mp hv
  · intro hm
    exact hv.value_unique hs (hasForm_simple_iff.mpr hm) hk trivial

theorem eq_invalid_iff (hv : HasForm s v F) : v = .simple .invalid ↔ F = .invalid := by
  constructor
  · rintro rfl
    rw [← Form.machine?_eq_some_iff.mp (hasForm_simple_iff.mp hv), MachineType.form_invalid]
  · rintro rfl
    cases v with
    | simple m => rw [Option.some.inj (hasForm_simple_iff.mp hv)]
    | extended x =>
      cases hv with
      | extended _ he => cases he

theorem laneless_iff (hs : s.WellFormed) (hv : HasForm s v F) :
    v.Laneless s e ↔ F.lanes? = none ∧ e = F.notVector := by
  have hvec : v.isVector s = .ok false ↔ F.lanes? = none := by
    rw [hv.isVector, Except.ok.injEq, Option.isSome_eq_false_iff, Option.isNone_iff_eq_none]
  constructor
  · intro h
    cases h with
    | invalid h =>
      rw [hv.eq_invalid_iff.mp h]
      exact ⟨rfl, rfl⟩
    | scalar h hl hn =>
      cases (hv.name hs).symm.trans hn
      exact ⟨hvec.mp hl, (Form.notVector_of_ne (mt hv.eq_invalid_iff.mpr h)).symm⟩
  · rintro ⟨hl, rfl⟩
    by_cases h : F = .invalid
    · rw [h]
      exact .invalid (hv.eq_invalid_iff.mpr h)
    · rw [Form.notVector_of_ne h]
      exact .scalar (mt hv.eq_invalid_iff.mp h) (hvec.mpr hl) (hv.name hs)

theorem hasLanes_iff (hs : s.WellFormed) (hv : HasForm s v F) :
    v.HasLanes c n s ↔ ∃ d hc, F = .vector d c hc ∧ d.bits.toNat = n := by
  constructor
  · rintro ⟨-, hcount, bits, hbits, rfl⟩
    rw [hv.elementCount hs] at hcount
    rw [hv.scalarBits?] at hbits
    cases F with
    | vector d c' hc =>
      cases hcount
      cases hbits
      exact ⟨d, hc, rfl, rfl⟩
    | _ => cases hcount
  · rintro ⟨d, hc, rfl, rfl⟩
    exact ⟨hv.isVector, hv.elementCount hs, d.bits, hv.scalarBits?, rfl⟩

theorem integerLanes_iff (hs : s.WellFormed) (hv : HasForm s v F) :
    v.IntegerLanes c n s ↔
      ∃ bits hb hc, F = .vector (.integer bits hb) c hc ∧ bits.toNat = n := by
  constructor
  · rintro ⟨hl, hi⟩
    obtain ⟨d, hc, rfl, rfl⟩ := (hv.hasLanes_iff hs).mp hl
    rw [hv.isInteger] at hi
    cases d with
    | integer bits hb => exact ⟨bits, hb, hc, rfl, rfl⟩
    | float f => cases hi
  · rintro ⟨bits, hb, hc, rfl, rfl⟩
    exact ⟨(hv.hasLanes_iff hs).mpr ⟨_, hc, rfl, rfl⟩, hv.isInteger⟩

theorem scalarType_eq (hs : s.WellFormed) (hv : HasForm s v F) (hk : v.BelongsTo k)
    (hw : HasForm s w F.scalar) (hwk : w.BelongsTo k) : v.scalarType s = .ok w := by
  obtain ⟨w', hw', hwF, hwk'⟩ := hv.scalarType hk
  rw [hw', hwF.value_unique hs hw hwk' hwk]

theorem isVectorOf {d : Element} {hc : c.fitsVector} (hs : s.WellFormed)
    (hv : HasForm s v (.vector d c hc)) (hk : v.BelongsTo k)
    (hw : HasForm s w (.number d)) (hwk : w.BelongsTo k) : v.IsVectorOf w c s where
  isVector := hv.isVector
  scalarType := hv.scalarType_eq hs hk hw hwk
  elementType := by
    rw [hv.elementType hs]
    exact hv.scalarType_eq hs hk hw hwk
  elementCount := hv.elementCount hs
  entry m := by
    simp only [hv.eq_simple_iff hs hk, hw.eq_simple_iff hs hwk, Form.machine?_eq_some_iff,
      MachineType.form_eq_iff, MachineType.shape_ofScalar, Form.shape?, Option.map_eq_some_iff]
    simp [eq_comm]

theorem vectorRefused_iff (hs : s.WellFormed) (hv : HasForm s v F) :
    v.VectorRefused c s e ↔ F.lanesOf c = .error e := by
  have hmin : c.min = 0 ↔ c.fitsVector = false := by
    rw [← Bool.not_eq_true, Lanes.fitsVector_iff, ← UInt32.toNat_inj, UInt32.toNat_zero]
    omega
  rw [Form.lanesOf_eq_error_iff, ← hv.not_number_iff, ← hv.isNumber_iff, ← hmin]
  constructor
  · intro h
    cases h with
    | notElement h hn =>
      cases (hv.name hs).symm.trans hn
      exact .inl ⟨h, rfl⟩
    | noLanes h hc => exact .inr ⟨h, hc, rfl⟩
  · rintro (⟨h, rfl⟩ | ⟨h, hc, rfl⟩)
    · exact .notElement h (hv.name hs)
    · exact .noLanes h hc

theorem widenRefused_iff (hs : s.WellFormed) (hv : HasForm s v F) :
    v.WidenRefused s e ↔ F.widen = .error e := by
  rw [Form.widen_eq_error_iff, ← hv.laneless_iff hs]
  constructor
  · intro h
    cases h with
    | laneless h => exact .inl h
    | float h hf hn =>
      cases (hv.name hs).symm.trans hn
      rw [hv.isVector] at h
      rw [hv.isFloat] at hf
      cases F with
      | vector d c hc =>
        cases d with
        | integer bits hb => cases hf
        | float g => exact .inr (.inl ⟨g, c, hc, rfl, rfl⟩)
      | _ => cases h
    | tooWide h hw hb =>
      obtain ⟨bits, hin, hc, rfl, rfl⟩ := (hv.integerLanes_iff hs).mp h
      cases UInt32.toNat_inj.mp (hb.trans hin.toNat_double.symm)
      refine .inr (.inr ⟨bits, hin, _, hc, rfl, ?_, rfl⟩)
      rw [hin.double_iff]
      omega
  · rintro (h | ⟨g, c, hc, rfl, rfl⟩ | ⟨bits, hb, c, hc, rfl, hw, rfl⟩)
    · exact .laneless h
    · exact .float hv.isVector hv.isFloat (hv.name hs)
    · rw [hb.double_iff, Nat.not_le] at hw
      exact .tooWide ((hv.integerLanes_iff hs).mpr ⟨bits, hb, hc, rfl, rfl⟩) hw hb.toNat_double

end HasForm

section Exact

variable (hs : s.WellFormed) (hv : v.HasForm s F) (hk : v.BelongsTo k)
include hs hv hk

theorem exists_vector_iff : (∃ r t, vector k v c s = .ok r t) ↔ v.IsNumber s ∧ 1 ≤ c.min.toNat := by
  rw [vector_eq hs hv hk, Form.exists_settle_iff hs, hv.isNumber_iff, ← Lanes.fitsVector_iff]
  constructor
  · rintro ⟨G, hG⟩
    obtain ⟨d, hc, rfl, -⟩ := Form.lanesOf_eq_ok_iff.mp hG
    exact ⟨rfl, hc⟩
  · rintro ⟨hn, hc⟩
    cases F with
    | number d => exact ⟨_, Form.lanesOf_number hc⟩
    | _ => cases hn

theorem vector_eq_error_iff :
    (∃ t, vector k v c s = .error f t) ↔ ∃ e, v.VectorRefused c s e ∧ f = .rejected e := by
  rw [vector_eq hs hv hk, Form.settle_eq_error_iff hs]
  simp only [hv.vectorRefused_iff hs]

theorem isVectorOf_of_vector (h : vector k v c s = .ok r t) :
    r.BelongsTo k ∧ r.IsVectorOf v c t := by
  rw [vector_eq hs hv hk] at h
  obtain ⟨G, hG, ht, hle, hrG, hrk⟩ := Form.settle_ok hs h
  obtain ⟨d, hc, rfl, rfl⟩ := Form.lanesOf_eq_ok_iff.mp hG
  exact ⟨hrk, hrG.isVectorOf ht hrk (hv.mono hle) hk⟩

theorem exists_vector_eq_self (hvec : v.isVector s = .ok true) :
    ∃ e c, v.scalarType s = .ok e ∧ v.elementCount s = .ok c ∧ vector k e c s = .ok v s := by
  rw [hv.isVector] at hvec
  cases F with
  | vector d c hc =>
    obtain ⟨w, hw, hwF, hwk⟩ := hv.scalarType hk
    refine ⟨w, c, hw, hv.elementCount hs, ?_⟩
    rw [vector_eq hs hwF hwk, Form.scalar, Form.lanesOf_number hc]
    exact Form.realize_of_hasForm hs hv hk
  | _ => cases hvec

theorem exists_widen_iff :
    (∃ r t, v.widen k s = .ok r t) ↔ ∃ c n, v.IntegerLanes c n s ∧ 2 * n ≤ 16777216 := by
  rw [widen_eq hs hv hk, Form.exists_settle_iff hs]
  simp only [hv.integerLanes_iff hs, Form.widen_eq_ok_iff]
  constructor
  · rintro ⟨G, bits, hb, hw, c, hc, hF, -⟩
    exact ⟨c, _, ⟨bits, hb, hc, hF, rfl⟩, hb.double_iff.mp hw⟩
  · rintro ⟨c, n, ⟨bits, hb, hc, hF, rfl⟩, hw⟩
    exact ⟨_, bits, hb, hb.double_iff.mpr hw, c, hc, hF, rfl⟩

theorem widen_eq_error_iff :
    (∃ t, v.widen k s = .error f t) ↔ ∃ e, v.WidenRefused s e ∧ f = .rejected e := by
  rw [widen_eq hs hv hk, Form.settle_eq_error_iff hs]
  simp only [hv.widenRefused_iff hs]

theorem integerLanes_of_widen (h : v.widen k s = .ok r t) :
    r.BelongsTo k ∧ ∃ c n, v.IntegerLanes c n s ∧ r.IntegerLanes c (2 * n) t := by
  rw [widen_eq hs hv hk] at h
  obtain ⟨G, hG, ht, -, hrG, hrk⟩ := Form.settle_ok hs h
  obtain ⟨bits, hb, hw, c, hc, rfl, rfl⟩ := Form.widen_eq_ok_iff.mp hG
  refine ⟨hrk, c, bits.toNat, ?_, ?_⟩
  · exact (hv.integerLanes_iff hs).mpr ⟨bits, hb, hc, rfl, rfl⟩
  · exact (hrG.integerLanes_iff ht).mpr ⟨_, hw, hc, rfl, hb.toNat_double⟩

theorem exists_toInteger_iff :
    (∃ r t, v.toInteger k s = .ok r t) ↔ v.isVector s = .ok true := by
  rw [toInteger_eq hs hv hk, Form.exists_settle_iff hs, hv.isVector, Except.ok.injEq]
  constructor
  · rintro ⟨G, hG⟩
    obtain ⟨d, hb, c, hc, rfl, -⟩ := Form.toInteger_eq_ok_iff.mp hG
    rfl
  · intro hvec
    cases F with
    | vector d c hc => exact Form.exists_toInteger_vector d hc
    | _ => cases hvec

theorem toInteger_eq_error_iff :
    (∃ t, v.toInteger k s = .error f t) ↔ ∃ e, v.Laneless s e ∧ f = .rejected e := by
  rw [toInteger_eq hs hv hk, Form.settle_eq_error_iff hs]
  simp only [Form.toInteger_eq_error_iff, hv.laneless_iff hs]

theorem integerLanes_of_toInteger (h : v.toInteger k s = .ok r t) :
    r.BelongsTo k ∧ ∃ c n, v.HasLanes c n s ∧ r.IntegerLanes c n t := by
  rw [toInteger_eq hs hv hk] at h
  obtain ⟨G, hG, ht, -, hrG, hrk⟩ := Form.settle_ok hs h
  obtain ⟨d, hb, c, hc, rfl, rfl⟩ := Form.toInteger_eq_ok_iff.mp hG
  refine ⟨hrk, c, d.bits.toNat, ?_, ?_⟩
  · exact (hv.hasLanes_iff hs).mpr ⟨d, hc, rfl, rfl⟩
  · exact (hrG.integerLanes_iff ht).mpr ⟨_, hb, hc, rfl, rfl⟩

theorem toInteger_of_toInteger (h : v.toInteger k s = .ok r t) : r.toInteger k t = .ok r t := by
  rw [toInteger_eq hs hv hk] at h
  obtain ⟨G, hG, ht, -, hrG, hrk⟩ := Form.settle_ok hs h
  rw [toInteger_eq ht hrG hrk, Form.toInteger_of_toInteger hG]
  exact Form.realize_of_hasForm ht hrG hrk

theorem toInteger_of_isInteger (hvec : v.isVector s = .ok true) (hi : v.isInteger s = .ok true) :
    v.toInteger k s = .ok v s := by
  rw [hv.isVector] at hvec
  rw [hv.isInteger] at hi
  rw [toInteger_eq hs hv hk]
  cases F with
  | vector d c hc =>
    cases d with
    | integer bits hb => exact Form.realize_of_hasForm hs hv hk
    | float g => cases hi
  | _ => cases hvec

end Exact

end ValueType

end CodegenTypes
