import CodegenTypes.Proofs.CommandLine.Report
import CodegenTypes.Proofs.History.Separation

/-! Faults.  Nothing that is asked of a context and of its own value types is a fault, and no
arithmetic on the way wraps.  The faults that are left all break a precondition. -/

namespace CodegenTypes

/-- What a context hands out, it resolves.  Only handles past its end are unknown to it. -/
structure Context.Resolves (Γ : Context) : Prop where
  get : ∀ h f, Γ.get h = .error f ↔ Γ.size ≤ h.index ∧ f = .unknownHandle h
  unknown : ∀ h, Γ.size ≤ h.index → Γ.get? h = none ∧ Γ.element? h = none ∧ Γ.lanes? h = none ∧
    Γ.display h = unknownText h
  find : ∀ t h, Γ.find? t = some h → Γ.get h = .ok t
  entries : ∀ h t, (h, t) ∈ Γ.entries → Γ.get h = .ok t
  element : ∀ h j, Γ.element? h = some j → j.index < h.index ∧ ∃ t, Γ.get j = .ok t
  display : ∀ h j c, Γ.get? h = some (.vector j c) →
    Γ.display h = "<" ++ c.display ++ " x " ++ Γ.display j ++ ">"

namespace Context

variable {Γ : Context} {h : Handle} {t : IRType}

theorem get_eq_ok_iff : Γ.get h = .ok t ↔ Γ.get? h = some t := by
  rw [get]
  cases Γ.get? h <;> simp

theorem get_eq_error_iff {f : Fault} :
    Γ.get h = .error f ↔ Γ.size ≤ h.index ∧ f = .unknownHandle h := by
  rw [← get?_eq_none_iff, get]
  cases Γ.get? h <;> simp [eq_comm]

theorem get?_of_mem_entries (hm : (h, t) ∈ Γ.entries) : Γ.get? h = some t := by
  obtain ⟨⟨u, i⟩, hi, he⟩ := List.mem_map.mp hm
  cases he
  exact List.mk_mem_zipIdx_iff_getElem?.mp hi

theorem WellFormed.resolves (hΓ : Γ.WellFormed) : Γ.Resolves where
  get h f := get_eq_error_iff
  unknown h hh := by
    have hn := get?_eq_none_iff.mpr hh
    exact ⟨hn, by rw [element?, hn]; rfl, by rw [lanes?, hn]; rfl, display_of_get?_none hn⟩
  find t h hf := get_eq_ok_iff.mpr (get?_of_find? hf)
  entries h t hm := get_eq_ok_iff.mpr (get?_of_mem_entries hm)
  element h j he := by
    obtain ⟨t, ht, hj⟩ := Option.bind_eq_some_iff.mp he
    cases t with
    | vector i c =>
      cases hj
      obtain ⟨-, hlt, u, hu, -⟩ := hΓ.vector h j c ht
      exact ⟨hlt, u, get_eq_ok_iff.mpr hu⟩
    | _ => cases hj
  display h j c hh := hΓ.display_vector hh

end Context

namespace ValueType

/-- Every question has an answer.  Only questions about lanes may be refused, and by an error. -/
structure Answerable (v : ValueType) (s : Session) : Prop where
  irType : ∀ x, v = .extended x → ∃ t, x.irType s = .ok t
  name : ∃ text, v.name s = .ok text
  isInteger : ∃ b, v.isInteger s = .ok b
  isFloat : ∃ b, v.isFloat s = .ok b
  isVector : ∃ b, v.isVector s = .ok b
  isScalableVector : ∃ b, v.isScalableVector s = .ok b
  isFixedVector : ∃ b, v.isFixedVector s = .ok b
  scalarType : ∃ w, v.scalarType s = .ok w
  scalarBits : ∃ bits, v.scalarBits? s = .ok bits
  size : ∃ z, v.size? s = .ok z
  summary : ∃ r, Summary.of v s = .ok r
  elementType : ∀ f, v.elementType s ≠ .error (.fault f)
  elementCount : ∀ f, v.elementCount s ≠ .error (.fault f)
  numElements : ∀ f, v.numElements s ≠ .error (.fault f)

/-- A doubled width fits in a word, and a width times lanes in two. -/
structure Exact (v : ValueType) (s : Session) : Prop where
  doubled : ∀ bits, v.scalarBits? s = .ok (some bits) → (bits * 2).toNat = bits.toNat * 2
  size : ∀ bits c z, v.scalarBits? s = .ok (some bits) → v.lanes? s = .ok (some c) →
    v.size? s = .ok (some z) → z.minBits.toNat = bits.toNat * c.min.toNat

variable {s : Session} {v : ValueType} {F : Form}

theorem HasForm.answerable (hs : s.WellFormed) (hv : v.HasForm s F) : v.Answerable s where
  irType x hx := by
    subst hx
    cases hv with
    | extended hx _ =>
      obtain ⟨t, ht, -⟩ := ExtendedType.irType_of_holds hx
      exact ⟨t, ht⟩
  name := ⟨_, hv.name hs⟩
  isInteger := ⟨_, hv.isInteger⟩
  isFloat := ⟨_, hv.isFloat⟩
  isVector := ⟨_, hv.isVector⟩
  isScalableVector := ⟨_, hv.isScalableVector⟩
  isFixedVector := ⟨_, hv.isFixedVector⟩
  scalarType := by
    obtain ⟨k, hk⟩ := v.exists_belongsTo
    obtain ⟨w, hw, -⟩ := hv.scalarType hk
    exact ⟨w, hw⟩
  scalarBits := ⟨_, hv.scalarBits?⟩
  size := ⟨_, hv.size? hs⟩
  summary := ⟨_, hv.summary hs⟩
  elementType f := by
    obtain ⟨k, hk⟩ := v.exists_belongsTo
    obtain ⟨w, hw, -⟩ := hv.scalarType hk
    rw [hv.elementType hs, hw]
    split <;> simp
  elementCount f := by
    rw [hv.elementCount hs]
    exact mapError_rejected_ne_fault _ f
  numElements f := by
    rw [numElements, hv.elementCount hs]
    cases F.elementCount <;> simp [Except.mapError, Except.map]

theorem HasForm.exact (hs : s.WellFormed) (hv : v.HasForm s F) : v.Exact s where
  doubled bits hb := by
    rw [(hv.inRange_of_scalarBits? hb).toNat_double, Nat.mul_comm]
  size bits c z hb hc hz := by
    have hsize := (hv.size? hs).symm.trans hz
    rw [Form.size?, Except.ok.inj ((hv.lanes? hs).symm.trans hc), Except.ok.injEq] at hsize
    obtain ⟨e, he, hez⟩ := Option.map_eq_some_iff.mp hsize
    obtain ⟨d, hd, rfl⟩ := Option.map_eq_some_iff.mp (Except.ok.inj (hv.scalarBits?.symm.trans hb))
    cases he.symm.trans hd
    rw [← hez]
    exact BitSize.toNat_minBits_ofLanes _ _

end ValueType

namespace Request

variable {s t : Session} {r : Request} {e : Failure}

theorem rejected_of_projects (hs : s.WellFormed) {k : ContextId} (hp : r.Projects)
    (hr : ∀ v ∈ r.operands, v.Meaningful s) (he : r.run k s = .error e t) :
    ∃ e', e = .rejected e' := by
  cases e with
  | rejected e' => exact ⟨e', rfl⟩
  | fault f =>
    cases r with
    | scalarType v =>
      obtain ⟨F, hF⟩ := hr v (by simp [operands])
      obtain ⟨w, hw⟩ := (hF.answerable hs).scalarType
      cases hw.symm.trans (ask_eq_error_iff.mp (map_eq_error_iff.mp he)).1
    | elementType v =>
      obtain ⟨F, hF⟩ := hr v (by simp [operands])
      exact absurd (ask_eq_error_iff.mp (map_eq_error_iff.mp he)).1
        ((hF.answerable hs).elementType f)
    | _ => exact hp.elim

theorem refusal_of_error (hs : s.WellFormed) (k : ContextId)
    (hr : ∀ v ∈ r.operands, v.Meaningful s) (he : r.run k s = .error e t) : r.Refusal k s e := by
  by_cases hp : r.Projects
  · obtain ⟨e', rfl⟩ := rejected_of_projects hs hp hr he
    exact .rejected e'
  · rcases run_cases hs k hp hr with ⟨a, u, ha, -⟩ | ⟨e', he', hrefusal⟩
    · cases he.symm.trans ha
    · cases he.symm.trans he'
      exact hrefusal

end Request

namespace History

variable {H : History}

/-- Contexts resolve what they hand out, value types answer what they are asked, and widths and
sizes are exact.  A request that faults has an operand that is away from home.  Lanes fault where
the checked operation refuses, the table has every scalar, the digits of a text end between two
of its characters, and no command faults at all. -/
theorem Reachable.no_fault (hH : H.Reachable) (k : ContextId) :
    (H.session.context k).Resolves ∧
    (∀ v, H.Issued v → v.Answerable H.session ∧ v.Exact H.session) ∧
    (∀ (r : Request) (f : Fault) (s : Session), (∀ v ∈ r.operands, H.Issued v) →
      r.run k H.session = .error (.fault f) s →
      ∃ v ∈ r.operands, ¬v.BelongsTo k ∧
        ∃ name, v.name H.session = .ok name ∧ f = .foreignType name) ∧
    (∀ (c : Lanes) (n : UInt32) (f : Fault),
      (c.mul n = .error f ↔ ∃ e, c.scale n = .error e ∧ f = .lanes e) ∧
      (c.div n = .error f ↔ ∃ e, c.divide n = .error e ∧ f = .lanes e)) ∧
    (∀ kind, (MachineType.find? (.scalar kind)).isSome) ∧
    (∀ m : MachineType, MachineType.ofIndex? m.index = some m) ∧
    (∀ text, String.Pos.Raw.IsValid text ⟨Decimal.digitBytes text⟩ ∧
      Decimal.digitBytes text =
        (String.ofList (text.toList.takeWhile Char.isDigit)).utf8ByteSize) ∧
    ∀ (pretty : Json → String) (terminal : Bool) (c : CommandLine.Command) (f : Fault),
      c.output terminal pretty ≠ .error (.fault f) := by
  have hs := hH.sound.session
  refine ⟨(hs k).resolves, ?_, ?_, ?_, MachineType.isSome_find?_scalar, ?_, ?_, ?_⟩
  · intro v hv
    obtain ⟨F, hF⟩ := hH.sound.exists_hasForm hv
    exact ⟨hF.answerable hs, hF.exact hs⟩
  · intro r f s hr he
    cases Request.refusal_of_error hs k (fun v hv => hH.sound.exists_hasForm (hr v hv)) he with
    | foreign hv hk hname => exact ⟨_, hv, hk, _, hname, rfl⟩
  · intro c n f
    exact ⟨except_mapError_eq_error_iff, except_mapError_eq_error_iff⟩
  · intro m
    exact dif_pos m.index.isLt
  · intro text
    exact ⟨Decimal.isValid_digitBytes text, Decimal.digitBytes_eq text⟩
  · intro pretty terminal c f
    exact Report.output_ne_fault pretty terminal c f

theorem no_fault_sample :
    sample.Reachable ∧ sample.Issued (.extended ⟨⟨0⟩, ⟨18⟩⟩) ∧
      (ValueType.extended ⟨⟨0⟩, ⟨18⟩⟩).Answerable sample.session ∧
      sample.Issued (.extended ⟨⟨1⟩, ⟨17⟩⟩) ∧
      ∃ s, (Request.widen (.extended ⟨⟨1⟩, ⟨17⟩⟩)).run ⟨0⟩ sample.session =
          .error (.fault (.foreignType "nxv5f32")) s ∧
        ∃ v ∈ (Request.widen (.extended ⟨⟨1⟩, ⟨17⟩⟩)).operands, ¬v.BelongsTo ⟨0⟩ := by
  have hv : sample.Issued (.extended ⟨⟨0⟩, ⟨18⟩⟩) := by simp [Issued, answers_sample]
  have hw : sample.Issued (.extended ⟨⟨1⟩, ⟨17⟩⟩) := by simp [Issued, answers_sample]
  obtain ⟨s, hs⟩ := Interning.failure?_eq_some_iff.mp
    (show Interning.failure? ((Request.widen (.extended ⟨⟨1⟩, ⟨17⟩⟩)).run ⟨0⟩) sample.session =
      some (.fault (.foreignType "nxv5f32")) by decide +kernel)
  have hsample := reachable_sample.no_fault ⟨0⟩
  obtain ⟨v, hv', hk, -⟩ := hsample.2.2.1 _ _ s (by simpa [Request.operands] using hw) hs
  exact ⟨reachable_sample, hv, (hsample.2.1 _ hv).1, hw, s, hs, v, hv', hk⟩

end History

end CodegenTypes
