namespace CodegenTypes

variable {ε δ α β : Type} {r : Except ε α}

theorem except_exists_ok_iff : (∃ a, r = .ok a) ↔ ∀ e, r ≠ .error e := by
  cases r <;> simp

theorem except_exists_error_iff : (∃ e, r = .error e) ↔ ∀ a, r ≠ .ok a := by
  cases r <;> simp

section Bind

variable {next : α → Except ε β}

theorem except_ok_bind (a : α) : (Except.ok a >>= next) = next a := rfl

theorem except_bind_eq_ok_iff {b : β} :
    (r >>= next) = .ok b ↔ ∃ a, r = .ok a ∧ next a = .ok b := by
  cases r with
  | ok a =>
    constructor
    · exact fun h => ⟨a, rfl, h⟩
    · rintro ⟨a', ha, h⟩
      cases ha
      exact h
  | error e =>
    constructor
    · nofun
    · rintro ⟨a, ha, -⟩
      cases ha

theorem except_bind_eq_error_iff {e : ε} :
    (r >>= next) = .error e ↔ r = .error e ∨ ∃ a, r = .ok a ∧ next a = .error e := by
  cases r with
  | ok a =>
    constructor
    · exact fun h => .inr ⟨a, rfl, h⟩
    · rintro (h | ⟨a', ha, h⟩)
      · cases h
      · cases ha
        exact h
  | error e' =>
    change Except.error e' = .error e ↔ _
    simp

end Bind

section MapError

variable {f : ε → δ}

theorem except_mapError_eq_ok_iff {a : α} : r.mapError f = .ok a ↔ r = .ok a := by
  cases r with
  | ok b =>
    constructor
    · rintro ⟨⟩
      rfl
    · rintro ⟨⟩
      rfl
  | error e => exact ⟨nofun, nofun⟩

theorem except_mapError_eq_error_iff {d : δ} :
    r.mapError f = .error d ↔ ∃ e, r = .error e ∧ d = f e := by
  cases r with
  | ok b =>
    constructor
    · nofun
    · rintro ⟨e, he, -⟩
      cases he
  | error e =>
    constructor
    · rintro ⟨⟩
      exact ⟨e, rfl, rfl⟩
    · rintro ⟨e', ⟨⟩, rfl⟩
      rfl

end MapError

end CodegenTypes
