import CodegenTypes.Proofs.Form.Holding
import Mathlib.Data.List.Dedup

namespace CodegenTypes

def Form.leaf? : Form → Option IRType
  | invalid => none
  | mark kind _ => kind.irType?
  | number element | vector element _ _ => some element.irType

theorem Form.leaf_mem_reserved {F : Form} {m : MachineType} {t : IRType}
    (hm : F.machine? = some m) (ht : F.leaf? = some t) : t ∈ Context.reserved := by
  have key : ∀ {e : Element} {k : Scalar}, e.kind? = some k → e.irType ∈ Context.reserved := by
    intro e k hk
    obtain ⟨j, hj⟩ := Element.exists_reserved hk
    exact Context.mem_types_of_get? hj
  cases F with
  | invalid => cases ht
  | mark k hk => cases k <;> cases ht <;> decide
  | number e =>
    rw [machine?_number, Option.map_eq_some_iff] at hm
    obtain ⟨k, hk, -⟩ := hm
    cases ht
    exact key hk
  | vector e c hc =>
    rw [machine?_vector, Option.bind_eq_some_iff] at hm
    obtain ⟨k, hk, -⟩ := hm
    cases ht
    exact key hk

namespace Context

/-- The context with those of the types that it lacks appended, in their order. -/
def adjoin (Γ : Context) (ts : List IRType) : Context :=
  ⟨Γ.types ++ ts.dedup.filter (· ∉ Γ.types)⟩

variable {Γ Δ : Context} {t : IRType} {ts : List IRType} {h : Handle} {F : Form}

@[simp] theorem adjoin_nil (Γ : Context) : Γ.adjoin [] = Γ := by simp [adjoin]

theorem adjoin_cons_of_mem (ht : t ∈ Γ.types) : Γ.adjoin (t :: ts) = Γ.adjoin ts := by
  simp only [adjoin, List.dedup_cons]
  split <;> simp [ht]

theorem adjoin_cons_of_mem_tail (ht : t ∈ ts) : Γ.adjoin (t :: ts) = Γ.adjoin ts := by
  rw [adjoin, List.dedup_cons_of_mem ht, adjoin]

theorem insert_eq_adjoin (Γ : Context) (t : IRType) : (Γ.insert t).2 = Γ.adjoin [t] := by
  rw [adjoin, mk.injEq, types_insert]
  by_cases ht : t ∈ Γ.types <;> simp [ht]

theorem insert_insert_eq_adjoin (Γ : Context) (t u : IRType) :
    ((Γ.insert t).2.insert u).2 = Γ.adjoin [t, u] := by
  rw [insert_eq_adjoin, insert_eq_adjoin]
  by_cases ht : t ∈ Γ.types
  · rw [adjoin_cons_of_mem ht, adjoin_cons_of_mem ht, adjoin_nil]
  · by_cases htu : t = u
    · subst htu
      rw [adjoin_cons_of_mem_tail (List.mem_singleton_self t), adjoin_cons_of_mem, adjoin_nil]
      simp [adjoin, ht]
    · by_cases hu : u ∈ Γ.types <;> simp [adjoin, ht, hu, htu, Ne.symm htu]

theorem hold_eq_adjoin (hF : Γ.hold F = some (h, Δ)) :
    ∃ t u, F.leaf? = some t ∧ Δ.get? h = some u ∧ (u = t ∨ u.isVector) ∧ Δ = Γ.adjoin [t, u] := by
  have single : ∀ {t : IRType}, Γ.insert t = (h, Δ) →
      Δ.get? h = some t ∧ Δ = Γ.adjoin [t, t] := by
    intro t hi
    have hg := get?_insert Γ t
    have ha := insert_eq_adjoin Γ t
    rw [hi] at hg ha
    exact ⟨hg, ha.trans (adjoin_cons_of_mem_tail (List.mem_singleton_self t)).symm⟩
  cases F with
  | invalid => cases hF
  | mark k hk =>
    obtain ⟨t, ht, hi⟩ := Option.map_eq_some_iff.mp hF
    obtain ⟨hg, ha⟩ := single hi
    exact ⟨t, t, ht, hg, .inl rfl, ha⟩
  | number e =>
    obtain ⟨hg, ha⟩ := single (Option.some.inj hF)
    exact ⟨e.irType, e.irType, rfl, hg, .inl rfl, ha⟩
  | vector e c hc =>
    have hi : (Γ.insert e.irType).2.insert (.vector (Γ.insert e.irType).1 c) = (h, Δ) :=
      Option.some.inj hF
    have hg := get?_insert (Γ.insert e.irType).2 (.vector (Γ.insert e.irType).1 c)
    have ha := insert_insert_eq_adjoin Γ e.irType (.vector (Γ.insert e.irType).1 c)
    rw [hi] at hg ha
    exact ⟨e.irType, _, rfl, hg, .inr rfl, ha⟩

theorem WellFormed.hold_of_machine? (hΓ : Γ.WellFormed) {m : MachineType}
    (hm : F.machine? = some m) (hF : Γ.hold F = some (h, Δ)) :
    ∃ u, Δ.get? h = some u ∧ (Δ = Γ ∨ u.isVector ∧ Δ = Γ.adjoin [u]) := by
  obtain ⟨t, u, ht, hu, hut, rfl⟩ := hold_eq_adjoin hF
  have hmem : t ∈ Γ.types := hΓ.reserved.subset (Form.leaf_mem_reserved hm ht)
  rw [adjoin_cons_of_mem hmem] at hu ⊢
  refine ⟨u, hu, ?_⟩
  rcases hut with rfl | hv
  · exact .inl (by rw [adjoin_cons_of_mem hmem, adjoin_nil])
  · exact .inr ⟨hv, rfl⟩

end Context

end CodegenTypes
