import CodegenTypes.Context.Basic

namespace CodegenTypes.Context

def unknownText (h : Handle) : String := "<unknown type #" ++ Decimal.text h.index ++ ">"

def display (Γ : Context) (h : Handle) : String :=
  match Γ.get? h with
  | none => unknownText h
  | some .void => "void"
  | some .label => "label"
  | some .metadata => "metadata"
  | some .token => "token"
  | some (.integer bits) => "i" ++ Decimal.text bits.toNat
  | some (.float format) => format.name
  | some (.vector element lanes) =>
    "<" ++ lanes.display ++ " x " ++
      (if element.index < h.index then Γ.display element else unknownText element) ++ ">"
termination_by h.index

variable {Γ : Context} {h : Handle}

theorem display_of_get?_none (hh : Γ.get? h = none) : Γ.display h = unknownText h := by
  rw [display, hh]

theorem display_of_get?_label (hh : Γ.get? h = some .label) : Γ.display h = "label" := by
  rw [display, hh]

end CodegenTypes.Context
