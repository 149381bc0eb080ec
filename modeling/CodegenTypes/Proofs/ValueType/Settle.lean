import CodegenTypes.Proofs.ValueType.HasForm
import CodegenTypes.ValueType.Construct

/-! Requests that make value types settle on a form, or on an error, that depends
on the forms of their operands alone.  Only then is a context touched. -/

namespace CodegenTypes

namespace Form

def materialize (k : ContextId) (F : Form) : Interning Handle := fun s =>
  match (s.context k).hold F with
  | some (h, Γ) => .ok h (s.set k Γ)
  | none => .error (.rejected F.noIRType) s

/-- The value of a form: its entry if the table has one. -/
def realize (k : ContextId) (F : Form) : Interning ValueType :=
  match F.machine? with
  | some m => return .simple m
  | none => do
    let h ← F.materialize k
    return .extended ⟨k, h⟩

def settle (k : ContextId) : Except ValueTypeError Form → Interning ValueType
  | .ok F => F.realize k
  | .error e => throw (.rejected e)

variable {s t : Session} {k : ContextId} {F : Form} {h : Handle} {v w : ValueType}

theorem materialize_eq_ok_iff :
    F.materialize k s = .ok h t ↔ ∃ Γ, (s.context k).hold F = some (h, Γ) ∧ t = s.set k Γ := by
  rw [materialize]
  cases (s.context k).hold F with
  | none => simp
  | some p => simp [Prod.ext_iff, eq_comm]

theorem materialize_ok (hs : s.WellFormed) (hF : F.materialize k s = .ok h t) :
    t.WellFormed ∧ s ≤ t ∧ (t.context k).Holds h F := by
  obtain ⟨Γ, hΓ, rfl⟩ := materialize_eq_ok_iff.mp hF
  obtain ⟨hw, hle, hh⟩ := (hs k).hold hΓ
  exact ⟨hs.set hw, Session.le_set hle, by rwa [Session.context_set_self]⟩

theorem materialize_of_holds (hs : s.WellFormed) (hF : (s.context k).Holds h F) :
    F.materialize k s = .ok h s := by
  rw [materialize, (hs k).hold_of_holds hF]
  simp

theorem exists_materialize (hF : (s.context k).hold F ≠ none) :
    ∃ h t, F.materialize k s = .ok h t := by
  obtain ⟨⟨h, Γ⟩, hp⟩ := Option.ne_none_iff_exists'.mp hF
  exact ⟨h, s.set k Γ, by rw [materialize, hp]⟩

theorem hold_ne_none_of_machine?_none (he : F.machine? = none) (Γ : Context) :
    Γ.hold F ≠ none := by
  rw [ne_eq, Context.hold_eq_none_iff]
  rintro (rfl | ⟨kind, hk, rfl, -⟩)
  · cases he
  · rw [machine?_mark] at he
    cases he

theorem realize_of_machine? {m : MachineType} (he : F.machine? = some m) :
    F.realize k s = .ok (.simple m) s := by
  rw [realize, he]
  rfl

theorem realize_of_machine?_none (he : F.machine? = none) (hm : F.materialize k s = .ok h t) :
    F.realize k s = .ok (.extended ⟨k, h⟩) t := by
  rw [realize, he]
  exact bind_of_ok hm

theorem realize_ok (hv : F.realize k s = .ok v t) :
    (∃ m, F.machine? = some m ∧ v = .simple m ∧ t = s) ∨
      F.machine? = none ∧ ∃ h, F.materialize k s = .ok h t ∧ v = .extended ⟨k, h⟩ := by
  cases hm : F.machine? with
  | some m =>
    cases (realize_of_machine? hm).symm.trans hv
    exact .inl ⟨m, rfl, rfl, rfl⟩
  | none =>
    obtain ⟨h, u, hh⟩ := exists_materialize (hold_ne_none_of_machine?_none hm (s.context k))
    cases (realize_of_machine?_none hm hh).symm.trans hv
    exact .inr ⟨rfl, h, hh, rfl⟩

theorem exists_settle (hs : s.WellFormed) (k : ContextId) (F : Form) :
    ∃ v t, settle k (.ok F) s = .ok v t ∧ t.WellFormed ∧ s ≤ t ∧ v.HasForm t F ∧
      v.BelongsTo k := by
  cases he : F.machine? with
  | some m =>
    refine ⟨_, s, realize_of_machine? he, hs, le_rfl, ?_, trivial⟩
    exact ValueType.hasForm_simple_iff.mpr he
  | none =>
    obtain ⟨h, t, hm⟩ := exists_materialize (hold_ne_none_of_machine?_none he (s.context k))
    obtain ⟨ht, hle, hh⟩ := materialize_ok hs hm
    exact ⟨.extended ⟨k, h⟩, t, realize_of_machine?_none he hm, ht, hle, .extended hh he, rfl⟩

theorem settle_ok (hs : s.WellFormed) {r : Except ValueTypeError Form}
    (h : settle k r s = .ok v t) :
    ∃ F, r = .ok F ∧ t.WellFormed ∧ s ≤ t ∧ v.HasForm t F ∧ v.BelongsTo k := by
  cases r with
  | error e => cases h
  | ok F =>
    obtain ⟨w, u, hw, hF⟩ := exists_settle hs k F
    cases hw.symm.trans h
    exact ⟨F, rfl, hF⟩

theorem exists_settle_iff (hs : s.WellFormed) {r : Except ValueTypeError Form} :
    (∃ v t, settle k r s = .ok v t) ↔ ∃ F, r = .ok F := by
  constructor
  · rintro ⟨v, t, h⟩
    obtain ⟨F, hr, -⟩ := settle_ok hs h
    exact ⟨F, hr⟩
  · rintro ⟨F, rfl⟩
    obtain ⟨v, t, h, -⟩ := exists_settle hs k F
    exact ⟨v, t, h⟩

theorem settle_eq_error_iff (hs : s.WellFormed) {r : Except ValueTypeError Form} {f : Failure} :
    (∃ t, settle k r s = .error f t) ↔ ∃ e, r = .error e ∧ f = .rejected e := by
  constructor
  · rintro ⟨t, h⟩
    cases r with
    | ok F =>
      obtain ⟨v, u, hv, -⟩ := exists_settle hs k F
      cases hv.symm.trans h
    | error e =>
      cases h
      exact ⟨e, rfl, rfl⟩
  · rintro ⟨e, rfl, rfl⟩
    exact ⟨s, rfl⟩

theorem realize_of_hasForm (hs : s.WellFormed) (hv : v.HasForm s F) (hk : v.BelongsTo k) :
    F.realize k s = .ok v s := by
  cases hv with
  | simple m => exact realize_of_machine? (machine?_form m)
  | @extended x F hx he =>
    cases x with
    | mk j h =>
      cases hk
      exact realize_of_machine?_none he (materialize_of_holds hs hx)

theorem realize_vector_of_number {e : Element} (hs : s.WellFormed)
    (hm : (number e).machine? = none) (hw : (number e).realize k s = .ok w t) {c : Lanes}
    (hc : c.fitsVector) : (vector e c hc).realize k t = (vector e c hc).realize k s := by
  have hv : (vector e c hc).machine? = none := by
    rw [machine?_number, Option.map_eq_none_iff] at hm
    rw [machine?_vector, hm]
    rfl
  have ht : t = s.set k ((s.context k).insert e.irType).2 := by
    rw [realize, hm] at hw
    cases hw
    rfl
  -- the number is held by now, and its vector would have held it first
  have hi : (t.context k).insert e.irType = (s.context k).insert e.irType := by
    rw [ht, Session.context_set_self]
    exact ((hs k).insert_element e).insert_of_get? (Context.get?_insert _ _)
  have hh : (vector e c hc).materialize k t = (vector e c hc).materialize k s := by
    simp only [materialize, Context.hold, hi]
    rw [ht, Session.set_set]
  rw [realize, hv]
  simp only [bind, EStateM.bind, hh]

end Form

namespace ValueType

variable {s t : Session} {k : ContextId} {F : Form} {v : ValueType}

theorem within_intern_of_check {t : IRType} (hc : (s.context k).check t = .ok ()) :
    within k ((Context.intern t).adaptExcept .type) s =
      .ok ((s.context k).insert t).1 (s.set k ((s.context k).insert t).2) := by
  apply within_of_ok
  simp [EStateM.adaptExcept, Context.intern_of_check hc]

theorem within_intern_of_error {t : IRType} {e : TypeError}
    (hc : (s.context k).check t = .error e) :
    within k ((Context.intern t).adaptExcept .type) s = .error (.rejected (.type e)) s := by
  apply within_of_error
  simp [EStateM.adaptExcept, Context.intern, hc]

theorem checkOwner_of_belongsTo (hk : v.BelongsTo k) : v.checkOwner k s = .ok () s := by
  cases v with
  | simple m => rfl
  | extended x => rw [checkOwner, if_pos (show x.owner = k from hk)]; rfl

theorem checkOwner_of_not_belongsTo (hs : s.WellFormed) (hv : v.HasForm s F)
    (hk : ¬v.BelongsTo k) : v.checkOwner k s = .error (.fault (.foreignType F.name)) s := by
  cases v with
  | simple m => exact absurd trivial hk
  | extended x =>
    rw [checkOwner, if_neg (show ¬x.owner = k from hk)]
    exact bind_of_ok (ask_of_ok (hv.name hs))

theorem toIR_eq (hs : s.WellFormed) (hv : v.HasForm s F) (hk : v.BelongsTo k) :
    v.toIR k s = F.materialize k s := by
  cases hv with
  | simple m =>
    rw [toIR, within, m.toIR_eq (hs k), Form.materialize]
    cases (s.context k).hold m.form with
    | none => simp
    | some p => rfl
  | @extended x F hx he =>
    cases x with
    | mk j h =>
      cases hk
      rw [Form.materialize_of_holds hs hx]
      exact bind_of_ok (checkOwner_of_belongsTo rfl)

theorem integer_eq (k : ContextId) (bits : UInt32) (s : Session) :
    integer k bits s = Form.settle k (Form.integer bits) s := by
  rw [Form.integer]
  split
  · next hb =>
    have hm : MachineType.integer? bits = (Form.number (.integer bits hb)).machine? :=
      (Form.machine?_number (.integer bits hb)).symm
    have hi : within k ((Context.integer bits).adaptExcept .type) s =
        (Form.number (.integer bits hb)).materialize k s :=
      within_intern_of_check (Context.check_integer_iff.mpr hb)
    rw [integer, Form.settle, Form.realize, hm]
    cases (Form.number (.integer bits hb)).machine? with
    | some m => rfl
    | none => exact bind_of_eq hi
  · next hb =>
    have hm : MachineType.integer? bits = none := by
      cases hk : Scalar.integer? bits with
      | none => rw [MachineType.integer?, hk, Option.map_none]
      | some j => exact absurd (Scalar.inRange_of_integer? hk) hb
    rw [integer, hm]
    exact bind_of_error (within_intern_of_error (Context.check_integer_of_not hb))

theorem HasForm.exists_holds {w : ValueType} {e : Element} (hs : s.WellFormed)
    (hw : w.HasForm s (.number e)) (hk : w.BelongsTo k) :
    ∃ j, (s.context k).get? j = some e.irType := by
  cases w with
  | simple m =>
    have hm := hasForm_simple_iff.mp hw
    rw [Form.machine?_number, Option.map_eq_some_iff] at hm
    obtain ⟨kind, hkind, -⟩ := hm
    obtain ⟨j, hj⟩ := Element.exists_reserved hkind
    exact ⟨j, (hs k).get?_of_reserved hj⟩
  | extended x =>
    cases hw with
    | extended hx _ =>
      cases hx with
      | number hh =>
        cases hk
        exact ⟨x.handle, hh⟩

theorem HasForm.exists_toIR {w : ValueType} {e : Element} (hs : s.WellFormed)
    (hw : w.HasForm s (.number e)) (hk : w.BelongsTo k) :
    ∃ j, (s.context k).get? j = some e.irType ∧ w.toIR k s = .ok j s := by
  obtain ⟨j, hj⟩ := hw.exists_holds hs hk
  refine ⟨j, hj, ?_⟩
  rw [toIR_eq hs hw hk]
  exact Form.materialize_of_holds hs (.number hj)

theorem simple?_bind_vector? {w : ValueType} {e : Element} (hw : w.HasForm s (.number e))
    (c : Lanes) :
    w.simple?.bind (MachineType.vector? · c) =
      e.kind?.bind fun kind => MachineType.find? (.vector kind c) := by
  cases w with
  | simple m =>
    have hm := Form.machine?_eq_some_iff.mp (hasForm_simple_iff.mp hw)
    have hsh := m.hasShape_form
    rw [hm] at hsh
    rw [simple?, Option.bind_some, MachineType.vector?]
    generalize m.shape = sh at hsh
    cases hsh with
    | number hkind => rw [Scalar.kind?_eq_some_iff.mpr hkind]; rfl
  | extended x =>
    cases hw with
    | extended _ he =>
      rw [Form.machine?_number, Option.map_eq_none_iff] at he
      rw [he]
      rfl

theorem internVector_eq {w : ValueType} {e : Element} (hs : s.WellFormed)
    (hw : w.HasForm s (.number e)) (hk : w.BelongsTo k) {c : Lanes} (hc : c.fitsVector)
    (hm : (Form.vector e c hc).machine? = none) :
    internVector k w c s = (Form.vector e c hc).realize k s := by
  obtain ⟨j, hj, hr⟩ := hw.exists_toIR hs hk
  have hv : within k ((Context.vector j c).adaptExcept .type) s =
      (Form.vector e c hc).materialize k s := by
    rw [Form.materialize, Context.hold, (hs k).insert_of_get? hj]
    exact within_intern_of_check (Context.WellFormed.check_vector hc hj)
  rw [internVector, Form.realize, hm, bind_of_ok hr]
  exact bind_of_eq hv

theorem internVector_of_not_fits {w : ValueType} {e : Element} (hs : s.WellFormed)
    (hw : w.HasForm s (.number e)) (hk : w.BelongsTo k) {c : Lanes} (hc : ¬c.fitsVector) :
    internVector k w c s = .error (.rejected (.type .noLanes)) s := by
  obtain ⟨j, hj, hr⟩ := hw.exists_toIR hs hk
  have hch : (s.context k).check (.vector j c) = .error .noLanes := by
    simp [Context.check, hj, e.isElement_irType, hc]
  rw [internVector, bind_of_ok hr]
  exact bind_of_error (within_intern_of_error hch)

theorem vector_eq {w : ValueType} (hs : s.WellFormed) (hw : w.HasForm s F) (hk : w.BelongsTo k)
    (c : Lanes) : vector k w c s = Form.settle k (F.lanesOf c) s := by
  rw [vector, bind_of_ok (ask_of_ok hw.isElement)]
  cases F with
  | number e =>
    simp only [Form.isNumber, simple?_bind_vector? hw, ↓reduceIte]
    rw [Form.lanesOf]
    split
    · next hc =>
      rw [← Form.machine?_vector hc, Form.settle]
      cases hm : (Form.vector e c hc).machine? with
      | some m => exact (Form.realize_of_machine? hm).symm
      | none => exact internVector_eq hs hw hk hc hm
    · next hc =>
      rw [MachineType.find?_vector_of_not_fits hc]
      exact internVector_of_not_fits hs hw hk hc
  | invalid => exact bind_of_ok (ask_of_ok (hw.name hs))
  | mark kind hkind => exact bind_of_ok (ask_of_ok (hw.name hs))
  | vector e d hd => exact bind_of_ok (ask_of_ok (hw.name hs))

theorem vector_of_not_belongsTo {w : ValueType} (hs : s.WellFormed) (hw : w.HasForm s F)
    (hk : ¬w.BelongsTo k) (c : Lanes) :
    vector k w c s =
      .error (if F.isNumber then .fault (.foreignType F.name)
        else .rejected (.notElement F.name)) s := by
  rw [vector, bind_of_ok (ask_of_ok hw.isElement)]
  cases w with
  | simple m => exact absurd trivial hk
  | extended x =>
    cases F.isNumber with
    | true => exact bind_of_error (bind_of_error (checkOwner_of_not_belongsTo hs hw hk))
    | false => exact bind_of_ok (ask_of_ok (hw.name hs))

theorem settle_bind_vector (hs : s.WellFormed) {r : Except ValueTypeError Form} {c : Lanes}
    (hc : c.fitsVector) (hr : ∀ F, r = .ok F → F.machine? = none → ∃ e, F = .number e) :
    (Form.settle k r >>= fun w => vector k w c) s = Form.settle k (r >>= (·.lanesOf c)) s := by
  cases r with
  | error e => rfl
  | ok F =>
    obtain ⟨w, t, hw, ht, -, hF, hk⟩ := Form.exists_settle hs k F
    rw [bind_of_ok hw, vector_eq ht hF hk]
    change Form.settle k (F.lanesOf c) t = Form.settle k (F.lanesOf c) s
    cases hm : F.machine? with
    | some m =>
      -- nothing has been interned for the entry, so `t` is `s`
      cases (Form.realize_of_machine? hm).symm.trans hw
      rfl
    | none =>
      obtain ⟨e, rfl⟩ := hr F rfl hm
      rw [Form.lanesOf, dif_pos hc]
      exact Form.realize_vector_of_number hs hm hw hc

end ValueType

end CodegenTypes
