import CodegenTypes.NumberClass

/-! Listings of machine types, one line an entry: the index, the name, the class,
and for a vector the lanes.  Columns are as wide as the widest entry listed, and
colours surround the padded columns.  Blanks at the end of a line are cut off. -/

namespace CodegenTypes

structure Palette where
  name : String
  scalable : String
  dim : String
  reset : String

namespace Palette

def off : Palette := ⟨"", "", "", ""⟩

def on : Palette := ⟨"\x1b[34m", "\x1b[32m", "\x1b[2m", "\x1b[0m"⟩

def ofFlag (enabled : Bool) : Palette := if enabled then on else off

def isEnabled (p : Palette) : Bool := p.name ≠ ""

end Palette

namespace Listing

def padLeft (c : Char) (width : Nat) (s : String) : String :=
  String.ofList (List.replicate (width - s.length) c) ++ s

def padRight (width : Nat) (s : String) : String :=
  s ++ String.ofList (List.replicate (width - s.length) ' ')

def widest (widths : List Nat) : Nat := widths.foldr max 0

/-- At least three digits, and enough for the largest index. -/
def indexWidth (types : List MachineType) : Nat :=
  max 3 (Decimal.text (widest (types.map fun m => m.index.val))).length

def nameWidth (types : List MachineType) : Nat := widest (types.map fun m => m.name.length)

def isSpace (c : Char) : Bool :=
  let n := c.toNat
  0x09 ≤ n && n ≤ 0x0d || n = 0x20 || n = 0x85 || n = 0xa0 || n = 0x1680 ||
    0x2000 ≤ n && n ≤ 0x200a || n = 0x2028 || n = 0x2029 || n = 0x202f || n = 0x205f || n = 0x3000

def trimEnd (s : String) : String := String.ofList (s.toList.reverse.dropWhile isSpace).reverse

/-- Lanes that do not scale have no colour, and without a colour nothing is reset. -/
def lanesCell (p : Palette) (c : Lanes) : String :=
  let color := if c.scalable then p.scalable else ""
  let reset := if color.isEmpty then "" else p.reset
  color ++ c.display ++ reset

def lanesCells (p : Palette) (m : MachineType) : String :=
  match m.lanes? with
  | some c => "  " ++ lanesCell p c
  | none => ""

def line (p : Palette) (indices names : Nat) (m : MachineType) : String :=
  trimEnd (p.dim ++ padLeft '0' indices (Decimal.text m.index) ++ p.reset ++ "  " ++
    p.name ++ padRight names m.name ++ p.reset ++ "  " ++ padRight 5 m.numberClass.name ++
    lanesCells p m)

def table (p : Palette) (types : List MachineType) : String :=
  String.join (types.map fun m => line p (indexWidth types) (nameWidth types) m ++ "\n")

end Listing

end CodegenTypes
