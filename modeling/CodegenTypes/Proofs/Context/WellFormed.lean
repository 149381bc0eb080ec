import CodegenTypes.Context.Intern
import Mathlib.Data.List.Nodup
import Mathlib.Order.Defs.PartialOrder

namespace CodegenTypes

def IRType.InRange (bits : UInt32) : Prop := 1 ≤ bits.toNat ∧ bits.toNat ≤ 16777216

instance (bits : UInt32) : Decidable (IRType.InRange bits) := inferInstanceAs (Decidable (_ ∧ _))

theorem IRType.inRange_iff {bits : UInt32} :
    InRange bits ↔ ¬(bits = 0 ∨ maxIntegerBits < bits) := by
  rw [InRange, ← UInt32.toNat_inj, UInt32.lt_iff_toNat_lt]
  simp only [maxIntegerBits, UInt32.reduceToNat]
  omega

theorem IRType.InRange.toNat_double {bits : UInt32} (hb : InRange bits) :
    (bits * 2).toNat = 2 * bits.toNat := by
  have := hb.2
  rw [UInt32.toNat_mul, Nat.mul_comm]
  exact Nat.mod_eq_of_lt (by change 2 * bits.toNat < 2 ^ 32; omega)

theorem IRType.InRange.double_iff {bits : UInt32} (hb : InRange bits) :
    InRange (bits * 2) ↔ 2 * bits.toNat ≤ 16777216 := by
  have := hb.1
  rw [InRange, hb.toNat_double]
  omega

theorem Lanes.fitsVector_iff {c : Lanes} : c.fitsVector ↔ 1 ≤ c.min.toNat := by
  rw [fitsVector, decide_eq_true_eq, UInt32.le_iff_toNat_le]
  rfl

namespace Context

instance : Preorder Context where
  le Γ Δ := Γ.types <+: Δ.types
  le_refl _ := List.prefix_rfl
  le_trans _ _ _ := List.IsPrefix.trans

structure WellFormed (Γ : Context) : Prop where
  reserved : Context.reserved <+: Γ.types
  nodup : Γ.types.Nodup
  width : ∀ bits, .integer bits ∈ Γ.types → IRType.InRange bits
  vector : ∀ h e c, Γ.get? h = some (.vector e c) →
    1 ≤ c.min.toNat ∧ e.index < h.index ∧ ∃ t, Γ.get? e = some t ∧ t.isElement

variable {Γ Δ : Context} {t : IRType} {h j : Handle}

theorem get?_mono (hle : Γ ≤ Δ) (ht : Γ.get? h = some t) : Δ.get? h = some t := by
  obtain ⟨ts, hts⟩ := hle
  rw [get?, ← hts, List.getElem?_append_left (List.getElem?_eq_some_iff.mp ht).1]
  exact ht

theorem index_lt_size_iff : h.index < Γ.size ↔ ∃ t, Γ.get? h = some t := by
  rw [get?, size]
  constructor
  · intro hlt
    exact ⟨_, List.getElem?_eq_getElem hlt⟩
  · rintro ⟨t, ht⟩
    exact (List.getElem?_eq_some_iff.mp ht).1

theorem get?_eq_none_iff : Γ.get? h = none ↔ Γ.size ≤ h.index := List.getElem?_eq_none_iff

theorem check_integer_iff {bits : UInt32} :
    Γ.check (.integer bits) = .ok () ↔ IRType.InRange bits := by
  rw [check, IRType.inRange_iff]
  split <;> simp_all

theorem check_integer_of_not {bits : UInt32} (hb : ¬IRType.InRange bits) :
    Γ.check (.integer bits) = .error (.widthOutOfRange bits) := by
  rw [IRType.inRange_iff, not_not] at hb
  rw [check, if_pos hb]

theorem check_vector_iff {e : Handle} {c : Lanes} :
    Γ.check (.vector e c) = .ok () ↔ c.fitsVector ∧ ∃ u, Γ.get? e = some u ∧ u.isElement := by
  rw [check]
  cases Γ.get? e with
  | none => simp
  | some u =>
    by_cases hu : u.isElement
    · by_cases hc : c.fitsVector <;> simp [hu, hc]
    · simp [hu]

theorem mem_types_of_get? (ht : Γ.get? h = some t) : t ∈ Γ.types := List.mem_of_getElem? ht

theorem le_insert (Γ : Context) (t : IRType) : Γ ≤ (Γ.insert t).2 := by
  change Γ.types <+: _
  rw [types_insert]
  split
  · exact List.prefix_rfl
  · exact List.prefix_append _ _

theorem get?_insert_cases {u : IRType} (ht : (Γ.insert t).2.get? h = some u) :
    Γ.get? h = some u ∨ u = t ∧ h.index = Γ.size ∧ t ∉ Γ.types := by
  rw [get?, types_insert] at ht
  split at ht
  · exact .inl ht
  · next hmem =>
    rw [List.getElem?_append] at ht
    split at ht
    · exact .inl ht
    · next hge =>
      rw [List.getElem?_singleton] at ht
      split at ht
      · next hz =>
        refine .inr ⟨(Option.some.inj ht).symm, ?_, hmem⟩
        rw [size]
        omega
      · cases ht

namespace WellFormed

theorem fresh : Context.fresh.WellFormed where
  reserved := List.prefix_rfl
  nodup := by decide
  width := by
    intro bits hb
    simp only [Context.fresh, Context.reserved, List.mem_cons, IRType.integer.injEq, reduceCtorEq,
      List.not_mem_nil, false_or, or_false] at hb
    obtain rfl | rfl | rfl | rfl | rfl | rfl := hb <;> decide
  vector := by
    intro h e c hv
    have := mem_types_of_get? hv
    simp [Context.fresh, Context.reserved] at this

theorem get?_inj (hΓ : Γ.WellFormed) (hh : Γ.get? h = some t) (hj : Γ.get? j = some t) :
    h = j := by
  obtain ⟨i, hi⟩ := List.getElem?_eq_some_iff.mp hh
  obtain ⟨k, hk⟩ := List.getElem?_eq_some_iff.mp hj
  have : h.index = j.index := (List.Nodup.getElem_inj_iff hΓ.nodup).mp (hi.trans hk.symm)
  cases h
  cases j
  simp_all

theorem find?_of_get? (hΓ : Γ.WellFormed) (ht : Γ.get? h = some t) : Γ.find? t = some h := by
  cases hf : Γ.find? t with
  | none => exact absurd (mem_types_of_get? ht) (find?_eq_none_iff.mp hf)
  | some j => rw [hΓ.get?_inj ht (get?_of_find? hf)]

theorem find?_eq_some_iff (hΓ : Γ.WellFormed) : Γ.find? t = some h ↔ Γ.get? h = some t :=
  ⟨get?_of_find?, hΓ.find?_of_get?⟩

theorem insert_of_get? (hΓ : Γ.WellFormed) (ht : Γ.get? h = some t) : Γ.insert t = (h, Γ) := by
  rw [insert, hΓ.find?_of_get? ht]

theorem get?_of_reserved (hΓ : Γ.WellFormed) (ht : Context.fresh.get? h = some t) :
    Γ.get? h = some t :=
  get?_mono (Γ := Context.fresh) hΓ.reserved ht

theorem get?_named (hΓ : Γ.WellFormed) :
    Γ.get? .void = some .void ∧ Γ.get? .label = some .label ∧
      Γ.get? .metadata = some .metadata ∧ Γ.get? .token = some .token :=
  ⟨hΓ.get?_of_reserved rfl, hΓ.get?_of_reserved rfl, hΓ.get?_of_reserved rfl,
    hΓ.get?_of_reserved rfl⟩

theorem insert (hΓ : Γ.WellFormed) (hc : Γ.check t = .ok ()) : (Γ.insert t).2.WellFormed where
  reserved := hΓ.reserved.trans (le_insert Γ t)
  nodup := by
    rw [types_insert]
    split
    · exact hΓ.nodup
    · next hmem =>
      rw [List.nodup_append]
      refine ⟨hΓ.nodup, List.nodup_singleton t, ?_⟩
      intro a ha b hb hab
      rw [List.mem_singleton.mp hb] at hab
      exact hmem (hab ▸ ha)
  width := by
    intro bits hb
    rw [types_insert] at hb
    split at hb
    · exact hΓ.width bits hb
    · rcases List.mem_append.mp hb with hb | hb
      · exact hΓ.width bits hb
      · rw [← List.mem_singleton.mp hb] at hc
        exact check_integer_iff.mp hc
  vector := by
    intro h e c hv
    rcases get?_insert_cases hv with hv | ⟨rfl, hh, -⟩
    · obtain ⟨hc, he, u, hu, hel⟩ := hΓ.vector h e c hv
      exact ⟨hc, he, u, get?_mono (le_insert Γ t) hu, hel⟩
    · obtain ⟨hfit, u, hu, hel⟩ := check_vector_iff.mp hc
      refine ⟨Lanes.fitsVector_iff.mp hfit, ?_, u, get?_mono (le_insert Γ _) hu, hel⟩
      -- the element was there before the vector
      rw [hh]
      exact index_lt_size_iff.mpr ⟨u, hu⟩

end WellFormed

end Context

end CodegenTypes
