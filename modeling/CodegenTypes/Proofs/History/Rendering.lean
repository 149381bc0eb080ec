import CodegenTypes.Proofs.Form.Rendering
import CodegenTypes.Proofs.History.Vectors

namespace CodegenTypes.History

variable {H : History}

/-- Rendering goes no deeper than to the element of a vector, and tells all handles apart: those of
different types, and those that the context has not issued.  A type is shown alike from then on. -/
theorem Reachable.display_identifies (hH : H.Reachable) (k : ContextId) :
    (∀ h depth, (H.session.context k).displayWithin (depth + 2) h =
      some ((H.session.context k).display h)) ∧
    Function.Injective (H.session.context k).display ∧
    (∀ h t j u, (H.session.context k).get? h = some t → (H.session.context k).get? j = some u →
      ((H.session.context k).display h = (H.session.context k).display j ↔ t = u)) ∧
    (∀ h j, (H.session.context k).display h = Context.unknownText j ↔
      h = j ∧ (H.session.context k).size ≤ h.index) ∧
    ∀ h, h.index < (H.session.context k).size → ∀ H', H.Later H' →
      (H'.session.context k).display h = (H.session.context k).display h := by
  have hΓ := hH.sound.session k
  refine ⟨hΓ.displayWithin_eq, hΓ.display_injective, fun h t j u => hΓ.display_eq_iff,
    fun h j => hΓ.display_eq_unknownText_iff, fun h hh H' hlater => ?_⟩
  obtain ⟨hH', hle, -⟩ := hH.sound.later hlater
  exact hΓ.display_mono (hH'.session k) (hle k) hh

theorem display_identifies_sample :
    sample.Reachable ∧
      (sample.session.context ⟨0⟩).displayWithin 2 ⟨18⟩ = some "<3 x i17>" ∧
      (sample.session.context ⟨0⟩).display ⟨18⟩ ≠ (sample.session.context ⟨0⟩).display ⟨99⟩ ∧
      18 < (sample.session.context ⟨0⟩).size ∧
      sample.Later (sample.perform ⟨0⟩ (.parse "i99")) ∧
      ((sample.perform ⟨0⟩ (.parse "i99")).session.context ⟨0⟩).display ⟨18⟩ =
        (sample.session.context ⟨0⟩).display ⟨18⟩ := by
  have hΓ := reachable_sample.sound.session ⟨0⟩
  obtain ⟨hj, hh, -⟩ := get?_sample
  have hlater : sample.Later (sample.perform ⟨0⟩ (.parse "i99")) :=
    .single (.perform ⟨0⟩ (.parse "i99") nofun)
  have hsize := Context.index_lt_size_iff.mpr ⟨_, hh⟩
  obtain ⟨hdepth, hinjective, -, -, hstable⟩ := reachable_sample.display_identifies ⟨0⟩
  have htext : (sample.session.context ⟨0⟩).display ⟨18⟩ = "<3 x i17>" := by
    rw [hΓ.display_vector hh, Context.display_element (e := .integer 17 (by decide)) hj]
    decide
  refine ⟨reachable_sample, htext ▸ hdepth ⟨18⟩ 0, hinjective.ne (by decide), hsize, hlater,
    hstable ⟨18⟩ hsize _ hlater⟩

end CodegenTypes.History
