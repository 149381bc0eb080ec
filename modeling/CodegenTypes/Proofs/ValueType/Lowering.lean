import CodegenTypes.Proofs.ValueType.Settle

namespace CodegenTypes

/-- The kinds that stand for no IR type. -/
def Scalar.placeholders : List Scalar := [.other, .glue, .untyped]

theorem Scalar.irType?_eq_none_iff {k : Scalar} : k.irType? = none ↔ k ∈ placeholders := by
  cases k <;> decide

theorem Scalar.element?_of_mem_placeholders {k : Scalar} (h : k ∈ placeholders) :
    k.element? = none := by
  rw [← irType?_eq_none_iff] at h
  cases k <;> cases h <;> rfl

namespace Context

variable {Γ : Context} {h : Handle}

theorem WellFormed.get?_eq_label_iff (hΓ : Γ.WellFormed) :
    Γ.get? h = some .label ↔ h = .label := by
  have hl : Γ.get? .label = some .label := hΓ.get?_named.2.1
  constructor
  · intro hh
    exact hΓ.get?_inj hh hl
  · rintro rfl
    exact hl

end Context

namespace ValueType

variable {s : Session} {k : ContextId} {h : Handle} {v : ValueType} {F : Form}

theorem ofIR_of_get?_none (hh : (s.context k).get? h = none) :
    ofIR k h s = .error (.rejected (.type (.unknownHandle h))) := by
  rw [ofIR, MachineType.ofIR, hh]

theorem ofIR_of_get?_label (hh : (s.context k).get? h = some .label) :
    ofIR k h s = .error (.rejected (.noValueType "label")) := by
  rw [ofIR, MachineType.ofIR, hh]
  simp only [Context.display_of_get?_label hh]

theorem ofIR_of_holds (hF : (s.context k).Holds h F) : ofIR k h s = .ok (ofHandle k h s) := by
  rw [ofIR, ofHandle, hF.ofIR]
  cases F.machine? <;> rfl

theorem ofIR_cases (hs : s.WellFormed) (k : ContextId) (h : Handle) :
    ((s.context k).size ≤ h.index ∧
        ofIR k h s = .error (.rejected (.type (.unknownHandle h)))) ∨
      (h = .label ∧ ofIR k h s = .error (.rejected (.noValueType "label"))) ∨
        ∃ F, (s.context k).Holds h F ∧ ofIR k h s = .ok (ofHandle k h s) := by
  cases ht : (s.context k).get? h with
  | none => exact .inl ⟨Context.get?_eq_none_iff.mp ht, ofIR_of_get?_none ht⟩
  | some t =>
    by_cases hl : t = .label
    · rw [hl] at ht
      exact .inr (.inl ⟨(hs k).get?_eq_label_iff.mp ht, ofIR_of_get?_label ht⟩)
    · obtain ⟨F, hF⟩ := (hs k).exists_holds ht hl
      exact .inr (.inr ⟨F, hF, ofIR_of_holds hF⟩)

theorem toIR_ofHandle (hs : s.WellFormed) (hF : (s.context k).Holds h F) :
    (ofHandle k h s).toIR k s = .ok h s := by
  rw [toIR_eq hs (hasForm_ofHandle hF) belongsTo_ofHandle]
  exact Form.materialize_of_holds hs hF

theorem ofIR_eq_unknownHandle_iff (hs : s.WellFormed) :
    ofIR k h s = .error (.rejected (.type (.unknownHandle h))) ↔
      (s.context k).size ≤ h.index := by
  constructor
  · intro he
    rcases ofIR_cases hs k h with ⟨hge, -⟩ | ⟨-, hl⟩ | ⟨F, -, hv⟩
    · exact hge
    · cases he.symm.trans hl
    · cases he.symm.trans hv
  · intro hge
    exact ofIR_of_get?_none (Context.get?_eq_none_iff.mpr hge)

theorem ofIR_eq_noValueType_iff (hs : s.WellFormed) :
    ofIR k h s = .error (.rejected (.noValueType "label")) ↔ h = .label := by
  constructor
  · intro he
    rcases ofIR_cases hs k h with ⟨-, hu⟩ | ⟨hl, -⟩ | ⟨F, -, hv⟩
    · cases he.symm.trans hu
    · exact hl
    · cases he.symm.trans hv
  · intro hl
    exact ofIR_of_get?_label ((hs k).get?_eq_label_iff.mpr hl)

theorem exists_ofIR (hs : s.WellFormed) (hlt : h.index < (s.context k).size)
    (hl : h ≠ .label) : ∃ v, ofIR k h s = .ok v ∧ v.toIR k s = .ok h s := by
  rcases ofIR_cases hs k h with ⟨hge, -⟩ | ⟨hl', -⟩ | ⟨F, hF, hv⟩
  · exact absurd hlt (Nat.not_lt.mpr hge)
  · exact absurd hl' hl
  · exact ⟨_, hv, toIR_ofHandle hs hF⟩

theorem ofIR_of_hasForm (hs : s.WellFormed) (hv : v.HasForm s F) (hk : v.BelongsTo k)
    (hF : (s.context k).Holds h F) : ofIR k h s = .ok v := by
  rw [ofIR_of_holds hF]
  rw [(hasForm_ofHandle hF).value_unique hs hv belongsTo_ofHandle hk]

theorem toIR_of_hold_none (hs : s.WellFormed) (hv : v.HasForm s F) (hk : v.BelongsTo k)
    (hF : (s.context k).hold F = none) : v.toIR k s = .error (.rejected F.noIRType) s := by
  rw [toIR_eq hs hv hk, Form.materialize, hF]

theorem toIR_invalid (hs : s.WellFormed) (k : ContextId) :
    (simple .invalid).toIR k s = .error (.rejected .invalid) s := by
  have hv : (simple .invalid).HasForm s .invalid := hasForm_simple_iff.mpr rfl
  exact toIR_of_hold_none hs hv trivial rfl

theorem toIR_placeholder (hs : s.WellFormed) (k : ContextId) {kind : Scalar}
    (hp : kind ∈ Scalar.placeholders) :
    (simple (.ofScalar kind)).toIR k s = .error (.rejected (.noIRType kind.name)) s := by
  have hel := Scalar.element?_of_mem_placeholders hp
  have hv : (simple (.ofScalar kind)).HasForm s (.mark kind hel) :=
    hasForm_simple_iff.mpr (Form.machine?_mark hel)
  apply toIR_of_hold_none hs hv trivial
  rw [Context.hold, Scalar.irType?_eq_none_iff.mpr hp, Option.map_none]

theorem exists_toIR (hs : s.WellFormed) (hv : v.HasForm s F) (hk : v.BelongsTo k)
    (hi : v ≠ simple .invalid) (hp : ∀ kind ∈ Scalar.placeholders, v ≠ simple (.ofScalar kind)) :
    ∃ h t, v.toIR k s = .ok h t ∧ ofIR k h t = .ok v := by
  have hne : (s.context k).hold F ≠ none := by
    rw [ne_eq, Context.hold_eq_none_iff]
    rintro (rfl | ⟨kind, hel, rfl, ht⟩)
    · exact hi (hv.value_unique hs (hasForm_simple_iff.mpr rfl) hk trivial)
    · have hm : (simple (.ofScalar kind)).HasForm s (.mark kind hel) :=
        hasForm_simple_iff.mpr (Form.machine?_mark hel)
      exact hp kind (Scalar.irType?_eq_none_iff.mp ht) (hv.value_unique hs hm hk trivial)
  obtain ⟨h, t, hr⟩ := Form.exists_materialize hne
  obtain ⟨ht, hle, hF⟩ := Form.materialize_ok hs hr
  exact ⟨h, t, (toIR_eq hs hv hk).trans hr, ofIR_of_hasForm ht (hv.mono hle) hk hF⟩

/-- Both are vectors, of the same lanes, and the element of the one stands for the other's. -/
structure Mirrors (v : ValueType) (k : ContextId) (h : Handle) (s : Session) : Prop where
  isVector : v.isVector s = .ok true
  vector : ∃ t, (s.context k).get? h = some t ∧ t.isVector
  lanes : ∃ c, (s.context k).lanes? h = some c ∧ v.elementCount s = .ok c
  element : ∃ j w, (s.context k).element? h = some j ∧ v.scalarType s = .ok w ∧
    ofIR k j s = .ok w ∧ w.toIR k s = .ok j s

theorem HasForm.mirrors {e : Element} {c : Lanes} {hc : c.fitsVector} (hs : s.WellFormed)
    (hv : v.HasForm s (.vector e c hc)) (hk : v.BelongsTo k)
    (hF : (s.context k).Holds h (.vector e c hc)) : v.Mirrors k h s := by
  obtain ⟨j, hj, hh⟩ := Context.Holds.vector_iff.mp hF
  obtain ⟨w, hw, hwF, hwk⟩ := hv.scalarType hk
  have hlanes : (s.context k).lanes? h = some c := by rw [Context.lanes?, hh]; rfl
  have helement : (s.context k).element? h = some j := by rw [Context.element?, hh]; rfl
  have htoIR : w.toIR k s = .ok j s :=
    (toIR_eq hs hwF hwk).trans (Form.materialize_of_holds hs hj)
  exact {
    isVector := hv.isVector
    vector := ⟨_, hh, rfl⟩
    lanes := ⟨c, hlanes, hv.elementCount hs⟩
    element := ⟨j, w, helement, hw, ofIR_of_hasForm hs hwF hwk hj, htoIR⟩ }

theorem exists_ofIR_mirrors (hs : s.WellFormed) {t : IRType}
    (ht : (s.context k).get? h = some t) (hvec : t.isVector) :
    ∃ v, ofIR k h s = .ok v ∧ v.Mirrors k h s := by
  cases t with
  | vector j c =>
    obtain ⟨e, hc, hF⟩ := (hs k).exists_holds_vector ht
    exact ⟨_, ofIR_of_holds hF, (hasForm_ofHandle hF).mirrors hs belongsTo_ofHandle hF⟩
  | _ => cases hvec

theorem exists_toIR_mirrors (hs : s.WellFormed) (hv : v.HasForm s F) (hk : v.BelongsTo k)
    (hvec : v.isVector s = .ok true) :
    ∃ h t, v.toIR k s = .ok h t ∧ v.Mirrors k h t := by
  rw [hv.isVector] at hvec
  cases F with
  | vector e c hc =>
    have hne : (s.context k).hold (.vector e c hc) ≠ none := by simp [Context.hold]
    obtain ⟨h, t, hh⟩ := Form.exists_materialize hne
    obtain ⟨ht, hle, hF⟩ := Form.materialize_ok hs hh
    exact ⟨h, t, (toIR_eq hs hv hk).trans hh, (hv.mono hle).mirrors ht hk hF⟩
  | _ => cases hvec

end ValueType

end CodegenTypes
