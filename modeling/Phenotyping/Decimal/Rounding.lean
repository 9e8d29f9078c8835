import Phenotyping.Binary64
import Phenotyping.Decimal.Basic
/-! # Rounding exact values to binary64 and to fixed places

Both directions round to nearest and send an exact tie to the even neighbour. A quotient of
whole numbers goes to the binary64 nearest to it (overflowing to an infinity, sinking to a
signed zero), and a binary64 goes to the nearest multiple of `10^-places`.
-/
namespace Phenotyping.Decimal
set_option autoImplicit false

/-- `num / den` rounded to the nearest whole number, an exact half to the even one. -/
def roundHalfEven (num den : Nat) : Nat :=
  let q := num / den
  let r := num % den
  match compare (2 * r) den with
  | .lt => q
  | .gt => q + 1
  | .eq => if q % 2 = 0 then q else q + 1

/-- The binary exponent of the nearest binary64 to `num / den` before range limits: the `k`
with `2^52 ≤ num · 2^k / den < 2^53`. -/
def scaleShift (num den : Nat) : Int :=
  let k : Int := 52 - ((num.log2 : Int) - (den.log2 : Int))
  let scaled := (num * Nat.pow 2 k.toNat) / (den * Nat.pow 2 (-k).toNat)
  if scaled < Nat.pow 2 52 then k + 1 else k

/-- The binary64 nearest to `num / den` (for `den > 0`), with the given sign. -/
def nearestOfRatio (negative : Bool) (num den : Nat) : Float :=
  if num = 0 then Binary64.ofParts negative 0 (-1074) else
    let k := min (scaleShift num den) 1074
    let q := roundHalfEven (num * Nat.pow 2 k.toNat) (den * Nat.pow 2 (-k).toNat)
    let (q, e) : Nat × Int := if q = Nat.pow 2 53 then (Nat.pow 2 52, -k + 1) else (q, -k)
    if e > 971 then (if negative then Binary64.negInfinity else Binary64.infinity)
    else Binary64.ofParts negative q e

/-- The binary64 nearest to a decimal. Far outside the range of binary64 the answer is an
infinity or a zero without computing the power of ten. -/
def toFloat (negative : Bool) (d : Decimal) : Float :=
  if d.digits = 0 then Binary64.ofParts negative 0 (-1074)
  else if d.point > 310 then (if negative then Binary64.negInfinity else Binary64.infinity)
  else if d.point < -330 then Binary64.ofParts negative 0 (-1074)
  else
    let (num, den) := scaleTen d.digits d.exponent
    nearestOfRatio negative num den

def toFixedUnits (m : Nat) (e : Int) (places : Nat) : Nat :=
  roundHalfEven (m * Nat.pow 2 e.toNat * Nat.pow 10 places) (Nat.pow 2 (-e).toNat)

end Phenotyping.Decimal
