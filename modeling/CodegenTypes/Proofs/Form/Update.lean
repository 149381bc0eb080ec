import CodegenTypes.Proofs.Form.Inverse

/-! Updates of vectors.  Some make other lanes of the lanes and some another element of the
element, and neither kind looks at what the other kind replaces. -/

namespace CodegenTypes.Form

/-- On vectors the update replaces the lanes, by what the lanes alone decide. -/
def OnLanes (update : Form → Except ValueTypeError Form) : Prop :=
  ∃ R : Lanes → Lanes → Prop, ∀ e c hc G,
    update (.vector e c hc) = .ok G ↔ ∃ d hd, R c d ∧ G = .vector e d hd

def OnElement (update : Form → Except ValueTypeError Form) : Prop :=
  ∃ R : Element → Element → Prop, ∀ e c hc G,
    update (.vector e c hc) = .ok G ↔ ∃ d, R e d ∧ G = .vector d c hc

variable {F G A B : Form} {e : Element} {c d : Lanes} {hc : c.fitsVector}
  {update update' : Form → Except ValueTypeError Form}

theorem OnLanes.comm (hL : OnLanes update) (hE : OnElement update') :
    (update (.vector e c hc) >>= update') = .ok G ↔
      (update' (.vector e c hc) >>= update) = .ok G := by
  obtain ⟨R, hR⟩ := hL
  obtain ⟨S, hS⟩ := hE
  simp only [except_bind_eq_ok_iff, hR, hS]
  constructor
  · rintro ⟨_, ⟨d, hd, hcd, rfl⟩, hG⟩
    obtain ⟨e', he, rfl⟩ := (hS ..).mp hG
    exact ⟨_, ⟨e', he, rfl⟩, (hR ..).mpr ⟨d, hd, hcd, rfl⟩⟩
  · rintro ⟨_, ⟨e', he, rfl⟩, hG⟩
    obtain ⟨d, hd, hcd, rfl⟩ := (hR ..).mp hG
    exact ⟨_, ⟨d, hd, hcd, rfl⟩, (hS ..).mpr ⟨e', he, rfl⟩⟩

theorem onLanes_recount (count : Lanes → Except LaneError Lanes) : OnLanes (recount count) := by
  refine ⟨fun c d => count c = .ok d, fun e c hc G => ?_⟩
  rw [recount_eq_ok_iff]
  constructor
  · rintro ⟨_, _, _, d, hd, h, ⟨⟩, hG⟩
    exact ⟨d, hd, h, hG⟩
  · rintro ⟨d, hd, h, hG⟩
    exact ⟨e, c, hc, d, hd, h, rfl, hG⟩

theorem onLanes_half : OnLanes half := onLanes_recount Lanes.halve

theorem onLanes_double : OnLanes double := by
  rw [show double = recount Lanes.double from funext double_eq_recount]
  exact onLanes_recount Lanes.double

theorem onLanes_withLanes (c : Lanes) : OnLanes (·.withLanes c) := by
  refine ⟨fun _ d => d = c, fun e c' hc' G => ?_⟩
  rw [withLanes_eq_ok_iff]
  constructor
  · rintro ⟨_, hc, ⟨⟩, hG⟩
    exact ⟨c, hc, rfl, hG⟩
  · rintro ⟨_, hc, rfl, hG⟩
    exact ⟨e, hc, rfl, hG⟩

theorem onElement_widen : OnElement widen := by
  refine ⟨fun e d => ∃ bits hb hw, e = .integer bits hb ∧ d = .integer (bits * 2) hw,
    fun e c hc G => ?_⟩
  rw [widen_eq_ok_iff]
  constructor
  · rintro ⟨bits, hb, hw, _, _, ⟨⟩, hG⟩
    exact ⟨_, ⟨bits, hb, hw, rfl, rfl⟩, hG⟩
  · rintro ⟨_, ⟨bits, hb, hw, rfl, rfl⟩, hG⟩
    exact ⟨bits, hb, hw, c, hc, rfl, hG⟩

theorem onElement_toInteger : OnElement toInteger := by
  refine ⟨fun e d => ∃ hb, d = .integer e.bits hb, fun e c hc G => ?_⟩
  rw [toInteger_eq_ok_iff]
  constructor
  · rintro ⟨_, hb, _, _, ⟨⟩, hG⟩
    exact ⟨_, ⟨hb, rfl⟩, hG⟩
  · rintro ⟨_, ⟨hb, rfl⟩, hG⟩
    exact ⟨e, hb, c, hc, rfl, hG⟩

theorem onElement_withElement (A : Form) : OnElement (·.withElement A) := by
  refine ⟨fun _ d => A = .number d, fun e c hc G => ?_⟩
  rw [withElement_eq_ok_iff]
  constructor
  · rintro ⟨_, _, _, d, ⟨⟩, hA, hG⟩
    exact ⟨d, hA, hG⟩
  · rintro ⟨d, hA, hG⟩
    exact ⟨e, c, hc, d, rfl, hA, hG⟩

/-! What is replaced is forgotten, and what is put back changes nothing. -/

theorem withLanes_self : (vector e c hc).withLanes c = .ok (.vector e c hc) :=
  withLanes_eq_ok_iff.mpr ⟨e, hc, rfl, rfl⟩

theorem withElement_self : (vector e c hc).withElement (.number e) = .ok (.vector e c hc) :=
  withElement_eq_ok_iff.mpr ⟨e, c, hc, e, rfl, rfl, rfl⟩

theorem withLanes_withLanes (h : F.withLanes c = .ok G) (d : Lanes) :
    G.withLanes d = F.withLanes d := by
  obtain ⟨e, hc, he, rfl⟩ := withLanes_eq_ok_iff.mp h
  rw [withLanes_of_element? he, withLanes_of_element? rfl]

theorem withElement_withElement (h : F.withElement A = .ok G) (B : Form) :
    G.withElement B = F.withElement B := by
  obtain ⟨e, c, hc, d, rfl, -, rfl⟩ := withElement_eq_ok_iff.mp h
  rfl

end CodegenTypes.Form
