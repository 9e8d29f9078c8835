/-! # Finite decimals

A `Decimal` is a natural number of digits scaled by a power of ten. The comparisons here are
exact: a decimal and a value `x · 2^s` are both brought to whole numbers by multiplying out
the negative powers, so no rounding enters a comparison.
-/
namespace Phenotyping
set_option autoImplicit false

/-- The non-negative decimal `digits · 10^exponent`; signs are kept apart by the users. -/
structure Decimal where
  digits : Nat
  exponent : Int
  deriving Repr, DecidableEq, Inhabited

namespace Decimal

def scaleTen (a : Nat) (p : Int) : Nat × Nat := (a * Nat.pow 10 p.toNat, Nat.pow 10 (-p).toNat)

/-- Orders `c · 10^p` against `x · 2^s` exactly, by cross-multiplying the denominators. -/
def compareDyadic (c : Nat) (p : Int) (x : Nat) (s : Int) : Ordering :=
  compare (c * Nat.pow 10 p.toNat * Nat.pow 2 (-s).toNat) (x * Nat.pow 2 s.toNat * Nat.pow 10 (-p).toNat)

/-- `⌊x · 2^s / 10^p⌋`, the whole part of a dyadic value on the grid of `10^p`. -/
def floorOnGrid (x : Nat) (s p : Int) : Nat :=
  (x * Nat.pow 2 s.toNat * Nat.pow 10 (-p).toNat) / (Nat.pow 10 p.toNat * Nat.pow 2 (-s).toNat)

def trimZeros (c : Nat) (p : Int) : Nat × Int :=
  if h : c ≠ 0 ∧ c % 10 = 0 then trimZeros (c / 10) (p + 1) else (c, p)
termination_by c
decreasing_by omega

/-- The same value with no trailing zero digit (zero keeps exponent `0`). -/
def normalize (d : Decimal) : Decimal :=
  if d.digits = 0 then ⟨0, 0⟩ else
    let r := trimZeros d.digits d.exponent
    ⟨r.1, r.2⟩

/-- The digits of a natural number, most significant first (`[0]` for zero). -/
def digitChars (n : Nat) : List Char := (Nat.toDigits 10 n)

/-- How many decimal digits a natural number has (`1` for zero). -/
def digitCount (n : Nat) : Nat := (digitChars n).length

/-- The position of the decimal point counted from the first digit: the value lies in
`[10^(k-1), 10^k)` for `k = point d` when the digits are non-zero. -/
def point (d : Decimal) : Int := (digitCount d.digits : Int) + d.exponent

end Decimal
end Phenotyping
