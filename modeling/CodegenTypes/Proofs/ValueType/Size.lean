import CodegenTypes.Proofs.Form.Inverse
import CodegenTypes.Proofs.ValueType.Growth
import CodegenTypes.Proofs.ValueType.Profile
import CodegenTypes.Proofs.ValueType.Vectors

namespace CodegenTypes

namespace Form

variable {F : Form}

theorem element?_eq_none_iff :
    F.element? = none ↔
      F.element?.any Element.isInteger = false ∧ F.element?.any Element.isFloat = false := by
  cases F.element? with
  | none => simp
  | some e => cases e <;> simp [Element.isInteger, Element.isFloat]

theorem size?_eq_none_iff : F.size? = none ↔ F.element? = none := Option.map_eq_none_iff

end Form

theorem MachineType.size?_form (m : MachineType) : m.size? = m.form.size? := by
  have hm := m.hasShape_form
  rw [size?]
  generalize m.shape = sh at hm
  generalize m.form = F at hm
  cases hm with
  | invalid => rfl
  | mark h => simp only [Scalar.bits?_eq, h]; rfl
  | number h => simp only [Scalar.bits?_eq, h]; rfl
  | vector h hc => simp only [Scalar.bits?_eq, h]; rfl

namespace ValueType

/-- The width of what fills the lanes, read off its IR type.  A scalar is its own only lane. -/
def HasWidth (v : ValueType) (k : ContextId) (s : Session) (w : Nat) : Prop :=
  ∃ e t bits, v.scalarType s = .ok e ∧ e.HasIRType k s t ∧ t.scalarBits? = some bits ∧
    bits.toNat = w

/-- Where `v` has `m` bits `r` has `n`, and both sizes scale or neither does. -/
def SizeRatio (v : ValueType) (s : Session) (r : ValueType) (t : Session) (m n : Nat) : Prop :=
  ∃ y z, v.size? s = .ok (some y) ∧ r.size? t = .ok (some z) ∧ z.scalable = y.scalable ∧
    n * y.minBits.toNat = m * z.minBits.toNat

variable {s t : Session} {k : ContextId} {v r : ValueType} {F : Form} {d d' : Element}
  {c c' : Lanes} {hc : c.fitsVector} {hc' : c'.fitsVector} {m n : Nat}

theorem size?_simple (hs : s.WellFormed) (m : MachineType) :
    (simple m).size? s = .ok m.size? := by
  rw [(HasForm.simple m).size? hs, m.size?_form]

namespace HasForm

theorem size?_eq_none_iff (hs : s.WellFormed) (hv : v.HasForm s F) :
    v.size? s = .ok none ↔ v.isInteger s = .ok false ∧ v.isFloat s = .ok false := by
  rw [hv.size? hs, hv.isInteger, hv.isFloat]
  simp only [Except.ok.injEq]
  rw [Form.size?_eq_none_iff, Form.element?_eq_none_iff]

theorem hasWidth (hs : s.WellFormed) (hv : v.HasForm s F) (hk : v.BelongsTo k)
    (hd : F.scalar = .number d) : v.HasWidth k s d.bits.toNat := by
  obtain ⟨e, he, heF, hek⟩ := hv.scalarType hk
  rw [hd] at heF
  obtain ⟨j, hj, hej⟩ := heF.exists_toIR hs hek
  refine ⟨e, d.irType, d.bits, he, ⟨j, hej, hj⟩, ?_, rfl⟩
  cases d <;> rfl

theorem size?_number (hs : s.WellFormed) (hv : v.HasForm s (.number d)) :
    v.size? s = .ok (some (.fixed d.bits.toUInt64)) := hv.size? hs

theorem size?_vector (hs : s.WellFormed) (hv : v.HasForm s (.vector d c hc)) :
    v.size? s = .ok (some (.ofLanes d.bits c)) := hv.size? hs

theorem sizeRatio (hs : s.WellFormed) (ht : t.WellFormed) (hv : v.HasForm s (.vector d c hc))
    (hr : r.HasForm t (.vector d' c' hc')) (hscalable : c'.scalable = c.scalable)
    (h : n * (d.bits.toNat * c.min.toNat) = m * (d'.bits.toNat * c'.min.toNat)) :
    v.SizeRatio s r t m n := by
  refine ⟨_, _, hv.size?_vector hs, hr.size?_vector ht, hscalable, ?_⟩
  rwa [BitSize.toNat_minBits_ofLanes, BitSize.toNat_minBits_ofLanes]

theorem sizeRatio_of_recount {count : Lanes → Except LaneError Lanes} (hs : s.WellFormed)
    (hv : v.HasForm s F) (h : Form.settle k (F.recount count) s = .ok r t)
    (hcount : ∀ c d, count c = .ok d →
      d.scalable = c.scalable ∧ n * c.min.toNat = m * d.min.toNat) :
    v.SizeRatio s r t m n := by
  obtain ⟨G, hG, ht, -, hrG, -⟩ := Form.settle_ok hs h
  obtain ⟨e, c, hc, d, hd, hcd, rfl, rfl⟩ := Form.recount_eq_ok_iff.mp hG
  obtain ⟨hscalable, hmin⟩ := hcount c d hcd
  refine hv.sizeRatio hs ht hrG hscalable ?_
  rw [Nat.mul_left_comm, hmin, Nat.mul_left_comm]

end HasForm

section Size

variable (hs : s.WellFormed) (hv : v.HasForm s F) (hk : v.BelongsTo k)
include hs hv hk

theorem exists_fixed_size (hn : v.IsNumber s) :
    ∃ bits, v.size? s = .ok (some (.fixed bits)) ∧ v.HasWidth k s bits.toNat := by
  have hnum := hv.isNumber_iff.mp hn
  cases F with
  | number d =>
    refine ⟨_, hv.size?_number hs, ?_⟩
    rw [UInt32.toNat_toUInt64]
    exact hv.hasWidth hs hk rfl
  | _ => cases hnum

theorem exists_size_of_isVector (hvec : v.isVector s = .ok true) :
    ∃ c w z, v.elementCount s = .ok c ∧ v.HasWidth k s w ∧ v.size? s = .ok (some z) ∧
      z.minBits.toNat = c.min.toNat * w ∧ v.isScalableVector s = .ok z.scalable := by
  rw [hv.isVector] at hvec
  cases F with
  | vector d c hc =>
    refine ⟨c, _, _, hv.elementCount hs, hv.hasWidth hs hk rfl, hv.size?_vector hs, ?_,
      hv.isScalableVector⟩
    rw [BitSize.toNat_minBits_ofLanes, Nat.mul_comm]
  | _ => cases hvec

theorem sizeRatio_of_half (h : v.half k s = .ok r t) : v.SizeRatio s r t 2 1 := by
  rw [half_eq hs hv hk, Form.half_eq_recount] at h
  refine hv.sizeRatio_of_recount hs h fun c d hd => ?_
  obtain ⟨-, hscalable, hmin⟩ := Lanes.divide_eq_ok_iff.mp hd
  refine ⟨hscalable, ?_⟩
  rw [← hmin, Nat.one_mul]
  exact Nat.mul_comm _ 2

theorem sizeRatio_of_double (h : v.double k s = .ok r t) : v.SizeRatio s r t 1 2 := by
  rw [double_eq hs hv hk, Form.double_eq_recount] at h
  refine hv.sizeRatio_of_recount hs h fun c d hd => ?_
  obtain ⟨-, hscalable, hmin⟩ := Lanes.scale_eq_ok_iff.mp hd
  refine ⟨hscalable, ?_⟩
  rw [hmin, Nat.one_mul]
  exact Nat.mul_comm 2 _

theorem sizeRatio_of_widen (h : v.widen k s = .ok r t) : v.SizeRatio s r t 1 2 := by
  rw [widen_eq hs hv hk] at h
  obtain ⟨G, hG, ht, -, hrG, -⟩ := Form.settle_ok hs h
  obtain ⟨bits, hb, hw, c, hc, rfl, rfl⟩ := Form.widen_eq_ok_iff.mp hG
  refine hv.sizeRatio hs ht hrG rfl ?_
  simp only [Element.bits, hb.toNat_double]
  rw [Nat.one_mul, Nat.mul_assoc]

theorem sizeRatio_of_toInteger (h : v.toInteger k s = .ok r t) : v.SizeRatio s r t 1 1 := by
  rw [toInteger_eq hs hv hk] at h
  obtain ⟨G, hG, ht, -, hrG, -⟩ := Form.settle_ok hs h
  obtain ⟨d, hb, c, hc, rfl, rfl⟩ := Form.toInteger_eq_ok_iff.mp hG
  exact hv.sizeRatio hs ht hrG rfl rfl

end Size

end ValueType

end CodegenTypes
