import CodegenTypes.Proofs.Json.Scanner

namespace CodegenTypes.Json

/-- Values that are a number up to a limit and a flag, written as an object of the two.  They are
read from every object that has both fields once, wherever they stand and whatever else there is,
and from the array of the two.  A number beyond the limit is refused. -/
structure ReadsBack (C : Codec) {α : Type} (R : Record α) (key : String) (limit : Nat)
    (number : α → Nat) (flag : α → Bool) : Prop where
  written (a : α) : C.read R (C.write R a) = .ok a
  rewritten {text : String} {a : α} (h : C.read R text = .ok a) :
    C.read R (C.write R a) = C.read R text
  object {fields : List (String × Leaf)} {text : String} (h : ObjectText fields text) (a : α) :
    C.read R text = .ok a ↔
      valuesOf key fields = [.integer (number a)] ∧ valuesOf "scalable" fields = [.bool (flag a)]
  array {items : List Leaf} {text : String} (h : ArrayText items text) (a : α) :
    C.read R text = .ok a ↔ items = [.integer (number a), .bool (flag a)]
  large_field {fields : List (String × Leaf)} {text : String} {n : Nat} (h : ObjectText fields text)
    (hn : (key, .integer n) ∈ fields) (hlimit : limit < n) : ∃ e, C.read R text = .error e
  large_item {items : List Leaf} {text : String} {n : Nat} (h : ArrayText items text)
    (hn : .integer n ∈ items.head?) (hlimit : limit < n) : ∃ e, C.read R text = .error e

variable {C : Codec}

theorem ReadsBack.of_entries (hC : C.Lawful) {α : Type} {R : Record α} {f g : Field} {limit : Nat}
    {number : α → Nat} {flag : α → Bool} (hg : g.key = "scalable")
    (hentries : ∀ a, R.entries a = [(f, .word (number a)), (g, .flag (flag a))])
    (hcells : ∀ a, R.cells a = [.word (number a), .flag (flag a)])
    (hbound : ∀ a, number a ≤ limit) : ReadsBack C R f.key limit number flag := by
  have hobject {fields : List (String × Leaf)} {text : String} (h : ObjectText fields text)
      (a : α) : C.read R text = .ok a ↔
        valuesOf f.key fields = [.integer (number a)] ∧
          valuesOf "scalable" fields = [.bool (flag a)] := by
    rw [hC.read_objectText h, hentries, List.forall_mem_cons, List.forall_mem_singleton, hg]
    rfl
  have harray {items : List Leaf} {text : String} (h : ArrayText items text) (a : α) :
      C.read R text = .ok a ↔ items = [.integer (number a), .bool (flag a)] := by
    rw [hC.read_arrayText h, hcells]
    rfl
  exact
    { written := hC.read_write R
      rewritten := fun h => (hC.read_write R _).trans h.symm
      object := hobject
      array := harray
      large_field := by
        intro fields text n h hn hlimit
        refine except_exists_error_iff.mpr fun a ha => ?_
        have hvalue := mem_valuesOf hn
        rw [((hobject h a).mp ha).1, List.mem_singleton, Leaf.integer.injEq, Int.natCast_inj]
          at hvalue
        exact Nat.not_lt.mpr (hbound a) (hvalue ▸ hlimit)
      large_item := by
        intro items text n h hn hlimit
        refine except_exists_error_iff.mpr fun a ha => ?_
        rw [(harray h a).mp ha] at hn
        cases Option.some.inj hn
        exact Nat.not_lt.mpr (hbound a) hlimit }

end CodegenTypes.Json
