import CodegenTypes.Proofs.Form.Update
import CodegenTypes.Proofs.ValueType.Concur
import CodegenTypes.Proofs.ValueType.Derived

namespace CodegenTypes

inductive LaneUpdate
  | half
  | double
  | withLanes (lanes : Lanes)
  deriving DecidableEq

inductive ElementUpdate
  | widen
  | toInteger
  | withElement (element : ValueType)
  deriving DecidableEq

def LaneUpdate.run (k : ContextId) : LaneUpdate → ValueType → Interning ValueType
  | half, v => v.half k
  | double, v => v.double k
  | withLanes lanes, v => v.withLanes k lanes

namespace ElementUpdate

def run (k : ContextId) : ElementUpdate → ValueType → Interning ValueType
  | widen, v => v.widen k
  | toInteger, v => v.toInteger k
  | withElement element, v => v.withElement k element

def operands : ElementUpdate → List ValueType
  | withElement element => [element]
  | widen | toInteger => []

end ElementUpdate

/-- From the session `s` on, the run settles on what the update makes of a form. -/
def Follows (k : ContextId) (s : Session) (run : ValueType → Interning ValueType)
    (update : Form → Except ValueTypeError Form) : Prop :=
  ∀ t v F, s ≤ t → t.WellFormed → v.HasForm t F → v.BelongsTo k →
    run v t = Form.settle k (update F) t

/-- From the session `s` on, the run makes a value type of the form, and none where there is no
form. -/
structure Yields (k : ContextId) (s : Session) (run : Interning ValueType)
    (form : Except ValueTypeError Form) : Prop where
  made : ∀ {t G}, s ≤ t → t.WellFormed → form = .ok G →
    ∃ r u, run t = .ok r u ∧ u.WellFormed ∧ t ≤ u ∧ r.HasForm u G ∧ r.BelongsTo k
  ok : ∀ {t r u}, s ≤ t → t.WellFormed → run t = .ok r u →
    ∃ G, form = .ok G ∧ u.WellFormed ∧ t ≤ u ∧ r.HasForm u G ∧ r.BelongsTo k

/-- Two runs that succeed together.  Where one has been before, the other finds the same value type
in the same context, and from one session both find value types of one name. -/
structure Interchangeable (first second : Interning ValueType) (s : Session) : Prop where
  success : (∃ r t, first s = .ok r t) ↔ ∃ r t, second s = .ok r t
  onward : ∀ r t, first s = .ok r t → ∃ u, second t = .ok r u
  back : ∀ r t, second s = .ok r t → ∃ u, first t = .ok r u
  sameName : ∀ r t r' t', first s = .ok r t → second s = .ok r' t' → r.SameName t r' t'

namespace ValueType

variable {s : Session} {k : ContextId} {e : ValueType} {A : Form}

theorem follows_half (k : ContextId) (s : Session) : Follows k s (·.half k) Form.half :=
  fun _ _ _ _ ht hv hk => half_eq ht hv hk

theorem follows_double (k : ContextId) (s : Session) : Follows k s (·.double k) Form.double :=
  fun _ _ _ _ ht hv hk => double_eq ht hv hk

theorem follows_widen (k : ContextId) (s : Session) : Follows k s (·.widen k) Form.widen :=
  fun _ _ _ _ ht hv hk => widen_eq ht hv hk

theorem follows_toInteger (k : ContextId) (s : Session) :
    Follows k s (·.toInteger k) Form.toInteger :=
  fun _ _ _ _ ht hv hk => toInteger_eq ht hv hk

theorem follows_withLanes (k : ContextId) (s : Session) (c : Lanes) :
    Follows k s (·.withLanes k c) (·.withLanes c) :=
  fun _ _ _ _ ht hv hk => withLanes_eq ht hv hk c

theorem follows_withElement (hA : e.HasForm s A) (hek : e.BelongsTo k) :
    Follows k s (·.withElement k e) (·.withElement A) :=
  fun _ _ _ hle ht hv hk => withElement_eq ht hv hk (hA.mono hle) hek

theorem exists_follows_lanes (k : ContextId) (s : Session) (L : LaneUpdate) :
    ∃ update, Form.OnLanes update ∧ Follows k s (L.run k) update := by
  cases L with
  | half => exact ⟨_, Form.onLanes_half, follows_half k s⟩
  | double => exact ⟨_, Form.onLanes_double, follows_double k s⟩
  | withLanes c => exact ⟨_, Form.onLanes_withLanes c, follows_withLanes k s c⟩

theorem exists_follows_element {E : ElementUpdate}
    (hE : ∀ e ∈ E.operands, (∃ A, e.HasForm s A) ∧ e.BelongsTo k) :
    ∃ update, Form.OnElement update ∧ Follows k s (E.run k) update := by
  cases E with
  | widen => exact ⟨_, Form.onElement_widen, follows_widen k s⟩
  | toInteger => exact ⟨_, Form.onElement_toInteger, follows_toInteger k s⟩
  | withElement e =>
    obtain ⟨⟨A, hA⟩, hek⟩ := hE e (List.mem_singleton_self e)
    exact ⟨_, Form.onElement_withElement A, follows_withElement hA hek⟩

end ValueType

theorem Follows.mono {s t : Session} {k : ContextId} {run : ValueType → Interning ValueType}
    {update : Form → Except ValueTypeError Form} (hle : s ≤ t) (h : Follows k s run update) :
    Follows k t run update :=
  fun u v F htu => h u v F (hle.trans htu)

namespace Yields

variable {s : Session} {k : ContextId} {run run' : Interning ValueType}
  {form form' : Except ValueTypeError Form}

theorem onward (h : Yields k s run form) (h' : Yields k s run' form') (hs : s.WellFormed)
    (hform : ∀ G, form = .ok G → form' = .ok G) {r : ValueType} {t : Session}
    (hr : run s = .ok r t) : ∃ u, run' t = .ok r u := by
  obtain ⟨G, hG, ht, hle, hrG, hrk⟩ := h.ok le_rfl hs hr
  obtain ⟨r', u, hr', hu, htu, hrG', hrk'⟩ := h'.made hle ht (hform G hG)
  -- a form has one value in a context, whichever run has made it
  rw [hrG'.value_unique hu (hrG.mono htu) hrk' hrk] at hr'
  exact ⟨u, hr'⟩

theorem exists_ok_iff (h : Yields k s run form) (hs : s.WellFormed) :
    (∃ r t, run s = .ok r t) ↔ ∃ G, form = .ok G := by
  constructor
  · rintro ⟨r, t, hr⟩
    obtain ⟨G, hG, -⟩ := h.ok le_rfl hs hr
    exact ⟨G, hG⟩
  · rintro ⟨G, hG⟩
    obtain ⟨r, t, hr, -⟩ := h.made le_rfl hs hG
    exact ⟨r, t, hr⟩

theorem interchangeable (h : Yields k s run form) (h' : Yields k s run' form') (hs : s.WellFormed)
    (hform : ∀ G, form = .ok G ↔ form' = .ok G) : Interchangeable run run' s where
  success := by
    rw [h.exists_ok_iff hs, h'.exists_ok_iff hs]
    exact exists_congr hform
  onward _ _ := h.onward h' hs fun G => (hform G).mp
  back _ _ := h'.onward h hs fun G => (hform G).mpr
  sameName r t r' t' hr hr' := by
    obtain ⟨G, hG, ht, -, hrG, -⟩ := h.ok le_rfl hs hr
    obtain ⟨G', hG', ht', -, hrG', -⟩ := h'.ok le_rfl hs hr'
    cases hG'.symm.trans ((hform G).mp hG)
    exact hrG.sameName ht ht' hrG'

end Yields

namespace Follows

variable {s : Session} {k : ContextId} {v : ValueType} {F : Form}
  {run run' : ValueType → Interning ValueType} {update update' : Form → Except ValueTypeError Form}

theorem yields (hf : Follows k s run update) (hv : v.HasForm s F) (hk : v.BelongsTo k) :
    Yields k s (run v) (update F) where
  made {t G} hle ht hG := by
    rw [hf t v F hle ht (hv.mono hle) hk, hG]
    exact Form.exists_settle ht k G
  ok {t r u} hle ht hr := by
    rw [hf t v F hle ht (hv.mono hle) hk] at hr
    exact Form.settle_ok ht hr

theorem bind (hf : Follows k s run update) (hg : Follows k s run' update') (hv : v.HasForm s F)
    (hk : v.BelongsTo k) : Yields k s (run v >>= run') (update F >>= update') where
  made {t G} hle ht hG := by
    obtain ⟨K, hK, hG⟩ := except_bind_eq_ok_iff.mp hG
    obtain ⟨w, u, hw, hu, htu, hwK, hwk⟩ := (hf.yields hv hk).made hle ht hK
    obtain ⟨r, q, hr, hq, huq, hrG⟩ :=
      ((hg.mono (hle.trans htu)).yields hwK hwk).made le_rfl hu hG
    exact ⟨r, q, (bind_of_ok hw).trans hr, hq, htu.trans huq, hrG⟩
  ok {t r q} hle ht hr := by
    cases hw : run v t with
    | error e u => cases (bind_of_error hw).symm.trans hr
    | ok w u =>
      obtain ⟨K, hK, hu, htu, hwK, hwk⟩ := (hf.yields hv hk).ok hle ht hw
      obtain ⟨G, hG, hq, huq, hrG⟩ :=
        ((hg.mono (hle.trans htu)).yields hwK hwk).ok le_rfl hu ((bind_of_ok hw).symm.trans hr)
      exact ⟨G, except_bind_eq_ok_iff.mpr ⟨K, hK, hG⟩, hq, htu.trans huq, hrG⟩

theorem overwrites (hg : Follows k s run' update') (hf : Follows k s run update)
    (hs : s.WellFormed) (hv : v.HasForm s F) (hk : v.BelongsTo k)
    (hreplace : ∀ G, update F = .ok G → update' G = update' F)
    (h : ∃ w t, run v s = .ok w t) : Interchangeable (run v >>= run') (run' v) s := by
  obtain ⟨G, hG⟩ := ((hf.yields hv hk).exists_ok_iff hs).mp h
  refine (hf.bind hg hv hk).interchangeable (hg.yields hv hk) hs fun K => ?_
  rw [hG]
  exact (hreplace G hG).congr_left

end Follows

namespace ValueType

variable {s : Session} {k : ContextId} {v e e' : ValueType} {F A B : Form} {c : Lanes}

section Update

variable (hs : s.WellFormed) (hv : v.HasForm s F) (hk : v.BelongsTo k)
include hs hv hk

/-- One lemma for all pairs of updates, since neither kind looks at what the other replaces. -/
theorem interchangeable_updates (hvec : v.isVector s = .ok true) (L : LaneUpdate)
    {E : ElementUpdate} (hE : ∀ e ∈ E.operands, (∃ A, e.HasForm s A) ∧ e.BelongsTo k) :
    Interchangeable (E.run k v >>= L.run k) (L.run k v >>= E.run k) s := by
  obtain ⟨f, hf, hfollowsL⟩ := exists_follows_lanes k s L
  obtain ⟨g, hg, hfollowsE⟩ := exists_follows_element hE
  rw [hv.isVector] at hvec
  cases F with
  | vector e c hc =>
    exact (hfollowsE.bind hfollowsL hv hk).interchangeable (hfollowsL.bind hfollowsE hv hk) hs
      fun G => (hf.comm hg).symm
  | _ => cases hvec

theorem withLanes_self (hc : v.elementCount s = .ok c) : v.withLanes k c s = .ok v s := by
  rw [hv.elementCount hs] at hc
  rw [withLanes_eq hs hv hk]
  cases F with
  | vector e d hd =>
    cases hc
    rw [Form.withLanes_self]
    exact Form.realize_of_hasForm hs hv hk
  | _ => cases hc

theorem withElement_self (hvec : v.isVector s = .ok true) (he : v.scalarType s = .ok e) :
    v.withElement k e s = .ok v s := by
  obtain ⟨w, hw, hwF, hwk⟩ := hv.scalarType hk
  cases hw.symm.trans he
  rw [withElement_eq hs hv hk hwF hwk]
  rw [hv.isVector] at hvec
  cases F with
  | vector d c hc =>
    rw [Form.scalar, Form.withElement_self]
    exact Form.realize_of_hasForm hs hv hk
  | _ => cases hvec

theorem withLanes_withLanes (h : ∃ w t, v.withLanes k c s = .ok w t) (d : Lanes) :
    Interchangeable (v.withLanes k c >>= (·.withLanes k d)) (v.withLanes k d) s :=
  (follows_withLanes k s d).overwrites (follows_withLanes k s c) hs hv hk
    (fun _ hG => Form.withLanes_withLanes hG d) h

theorem withElement_withElement (he : e.HasForm s A) (hek : e.BelongsTo k)
    (he' : e'.HasForm s B) (hek' : e'.BelongsTo k) (h : ∃ w t, v.withElement k e s = .ok w t) :
    Interchangeable (v.withElement k e >>= (·.withElement k e')) (v.withElement k e') s :=
  (follows_withElement he' hek').overwrites (follows_withElement he hek) hs hv hk
    (fun _ hG => Form.withElement_withElement hG B) h

end Update

end ValueType

end CodegenTypes
