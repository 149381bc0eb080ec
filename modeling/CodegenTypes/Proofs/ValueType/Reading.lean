import CodegenTypes.Proofs.Form.Reading
import CodegenTypes.Proofs.ValueType.Settle

namespace CodegenTypes.ValueType

variable {s t : Session} {k : ContextId} {v : ValueType}

theorem parseElement_eq (k : ContextId) (text : String) (s : Session) :
    parseElement k text s = Form.settle k (Form.readElement text) s := by
  rw [parseElement, Form.readElement]
  cases Spelling.ofString text with
  | canonical m => exact (Form.realize_of_machine? (Form.machine?_form m)).symm
  | integer bits => exact integer_eq k bits s
  | vector c element => rfl
  | unknown => rfl

theorem eq_number_of_readElement {text : String} {F : Form} (h : Form.readElement text = .ok F)
    (hm : F.machine? = none) : ∃ e, F = .number e := by
  rw [Form.readElement] at h
  cases hs : Spelling.ofString text with
  | canonical m =>
    rw [hs] at h
    cases h
    rw [Form.machine?_form] at hm
    cases hm
  | integer bits =>
    rw [hs] at h
    exact Form.eq_number_of_integer h
  | vector c element => rw [hs] at h; cases h
  | unknown => rw [hs] at h; cases h

theorem parse_eq (hs : s.WellFormed) (k : ContextId) (text : String) :
    parse k text s = Form.settle k (Form.read text) s := by
  rw [parse, Form.read]
  rcases Spelling.ofString_cases text with
    ⟨m, ht, -⟩ | ⟨bits, ht, -⟩ | ⟨c, element, ht, hc, -⟩ | ht
  · rw [ht]
    exact (Form.realize_of_machine? (Form.machine?_form m)).symm
  · rw [ht]
    exact integer_eq k bits s
  · rw [ht]
    have hr : ∀ F, Form.readElement element = .ok F → F.machine? = none →
        ∃ e, F = .number e := fun _ => eq_number_of_readElement
    change _ = Form.settle k (Form.readElement element >>= (·.lanesOf c)) s
    rw [← settle_bind_vector hs hc hr]
    exact bind_of_eq (parseElement_eq k element s)
  · rw [ht]
    rfl

theorem HasForm.parse_name {F : Form} (hs : s.WellFormed) (hv : v.HasForm s F)
    (hk : v.BelongsTo k) (hi : v.isValid) : parse k F.name s = .ok v s := by
  have hF : F ≠ .invalid := by
    rintro rfl
    rw [hv.isValid] at hi
    cases hi
  rw [parse_eq hs, Form.read_name hF]
  exact Form.realize_of_hasForm hs hv hk

theorem name_of_parse {text : String} (hs : s.WellFormed) (h : parse k text s = .ok v t) :
    v.name t = .ok text := by
  rw [parse_eq hs] at h
  obtain ⟨F, hr, ht, -, hF, -⟩ := Form.settle_ok hs h
  rw [hF.name ht, Form.name_of_read hr]

end CodegenTypes.ValueType
