/-! # Cell masks

A mask is one 64-bit word per cell; bit `b` says whether the cell is positive for the
channel at position `b` of a channel table.
-/
namespace Phenotyping
set_option autoImplicit false

/-- A 64-bit word of channel bits. -/
structure Mask where
  bits : UInt64
  deriving DecidableEq, Inhabited, Repr

namespace Mask

def empty : Mask := ⟨0⟩

def test (m : Mask) (b : Nat) : Bool := (m.bits >>> b.toUInt64) &&& 1 != 0

def set (m : Mask) (b : Nat) : Mask := ⟨m.bits ||| ((1 : UInt64) <<< b.toUInt64)⟩

def ofBits (bs : List Nat) : Mask := bs.foldl set empty

def toDecimal (m : Mask) : String := toString m.bits.toNat

end Mask
end Phenotyping
