import Phenotyping.Separation.Basic
/-! # Seeding a split from a fraction

The seed marks the top share of cells positive: cells are ranked by value from the top, in
the IEEE total order (a NaN above the infinities, `-0` below `+0`), equal values by cell
index, and the first `round(f · n)` of them are marked, the product taken in binary64 and
rounded half away from zero.
-/
namespace Phenotyping.Separation
set_option autoImplicit false

/-- A non-negative float rounded half away from zero to a whole number; negative values and
NaN give zero, an infinity gives zero too (no such product arises from a valid fraction). -/
def roundHalfAway (x : Float) : Nat :=
  match Binary64.view x with
  | .finite false m e => (2 * m * Nat.pow 2 e.toNat + Nat.pow 2 (-e).toNat) / (2 * Nat.pow 2 (-e).toNat)
  | _ => 0

/-- Ranking of cells: a higher value first, then the lower index. -/
def rankBefore (a b : Float × Nat) : Bool :=
  let ka := Binary64.totalKey a.1
  let kb := Binary64.totalKey b.1
  ka > kb || (ka == kb && a.2 ≤ b.2)

/-- Marks the top `round(f · n)` cells; the fraction must lie strictly between 0 and 1. -/
def seedFromFraction (values : List Float) (fraction : Float) :
    Except SeparationError (List Bool) :=
  if fraction > 0 ∧ fraction < 1 then
    let n := values.length
    let k := roundHalfAway (fraction * Float.ofNat n)
    let top := ((values.zipIdx.mergeSort rankBefore).take k).map Prod.snd
    let marks := top.foldl (fun (a : Array Bool) i => a.setIfInBounds i true) (Array.replicate n false)
    .ok marks.toList
  else .error (.invalidSeedFraction fraction)

end Phenotyping.Separation
