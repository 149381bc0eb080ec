import CodegenTypes.Lanes

namespace CodegenTypes

structure BitSize where
  minBits : UInt64
  scalable : Bool
  deriving DecidableEq

namespace BitSize

def fixed (bits : UInt64) : BitSize := ⟨bits, false⟩

def ofScalable (minBits : UInt64) : BitSize := ⟨minBits, true⟩

def ofLanes (laneBits : UInt32) (lanes : Lanes) : BitSize :=
  ⟨laneBits.toUInt64 * lanes.min.toUInt64, lanes.scalable⟩

def display (z : BitSize) : String :=
  (if z.scalable then "vscale x " else "") ++ Decimal.text z.minBits.toNat

theorem toNat_minBits_ofLanes (w : UInt32) (c : Lanes) :
    (ofLanes w c).minBits.toNat = w.toNat * c.min.toNat := by
  have hw : w.toNat ≤ 2 ^ 32 - 1 := Nat.le_pred_of_lt w.toNat_lt
  have hc : c.min.toNat ≤ 2 ^ 32 - 1 := Nat.le_pred_of_lt c.min.toNat_lt
  have := Nat.mul_le_mul hw hc
  simp only [ofLanes, UInt64.toNat_mul, UInt32.toNat_toUInt64]
  omega

end BitSize

end CodegenTypes
