import Phenotyping.Binary64
import Phenotyping.Decimal.Basic
/-! # The shortest decimal that reads back

A finite positive binary64 value `m · 2^e` stands for every real that rounds to it: the
interval reaching half a gap to either neighbour, ends included exactly when `m` is even
(a tie then rounds to `m`). For one, two, … seventeen significant digits the two decimals on
that grid next to the value are tested against the interval; the first grid with a hit wins,
of two hits the nearer one. Formats differ on an exact tie between the two: digit generation
as in messages takes the larger decimal, the table writer the one with the even last digit.

All arithmetic is on whole numbers, in units of a quarter gap `2^(e-2)`, so that the
narrower gap below a power of two (a quarter unit on each side) is whole too.
-/
namespace Phenotyping.Decimal
set_option autoImplicit false

/-- How an exact tie between the two nearest candidates on the shortest grid is broken. -/
inductive Tie where
  | up
  | even
  deriving Repr, DecidableEq

/-- The rounding interval of `m · 2^e` in quarter units: lower end, value, upper end, and
whether the ends belong to it. -/
structure Interval where
  low : Nat
  value : Nat
  high : Nat
  closed : Bool
  unitExponent : Int

/-- The interval of the reals that round to `m · 2^e`. The gap below is half the gap above
when `m` is the smallest normal significand and a smaller exponent exists. -/
def Interval.around (m : Nat) (e : Int) : Interval :=
  let below := if m = Nat.pow 2 52 ∧ e > -1074 then 1 else 2
  { low := 4 * m - below, value := 4 * m, high := 4 * m + 2, closed := m % 2 = 0,
    unitExponent := e - 2 }

def Interval.contains (iv : Interval) (c : Nat) (p : Int) : Bool :=
  let aboveLow := match compareDyadic c p iv.low iv.unitExponent with
    | .gt => true
    | .eq => iv.closed
    | .lt => false
  let belowHigh := match compareDyadic c p iv.high iv.unitExponent with
    | .lt => true
    | .eq => iv.closed
    | .gt => false
  aboveLow && belowHigh

/-- The exponent `k` with `10^k ≤ x · 2^s < 10^(k+1)`, for `x > 0`: an estimate from the
binary length, then one correction step either way. -/
def decimalExponent (x : Nat) (s : Int) : Int :=
  let bits : Int := (x.log2 : Int) + s
  let guess : Int := (bits * 315653) / 1048576
  if compareDyadic 1 (guess + 1) x s != .gt then guess + 1
  else if compareDyadic 1 guess x s == .gt then guess - 1
  else guess

/-- On the grid `10^p`, the neighbour of the value that lies in the interval, the nearer one
if both do (an exact tie as the rule says). -/
def Interval.pickOnGrid (tie : Tie) (iv : Interval) (p : Int) : Option Nat :=
  let lower := floorOnGrid iv.value iv.unitExponent p
  let upper := lower + 1
  match iv.contains lower p, iv.contains upper p with
  | true, true =>
      -- compare the value with the midpoint `(2 · lower + 1) · 10^p / 2`
      match compareDyadic (2 * lower + 1) p (2 * iv.value) iv.unitExponent with
      | .gt => some lower
      | .lt => some upper
      | .eq => match tie with
        | .up => some upper
        | .even => some (if lower % 2 = 0 then lower else upper)
  | true, false => some lower
  | false, true => some upper
  | false, false => none

/-- Tries the grids of `n`, `n+1`, … up to seventeen significant digits. -/
def Interval.search (tie : Tie) (iv : Interval) (top : Int) : Nat → Nat → Option Decimal
  | 0, _ => none
  | fuel + 1, n =>
    let p := top + 1 - n
    match iv.pickOnGrid tie p with
    | some c => some ⟨c, p⟩
    | none => iv.search tie top fuel (n + 1)

/-- The shortest decimal in the rounding interval of `m · 2^e`, for `m > 0`; trailing zeros
removed. Seventeen digits always suffice, so the fallback is never taken. -/
def shortestOf (tie : Tie) (m : Nat) (e : Int) : Decimal :=
  let iv := Interval.around m e
  let top := decimalExponent iv.value iv.unitExponent
  match iv.search tie top 17 1 with
  | some d => normalize d
  | none => normalize ⟨floorOnGrid iv.value iv.unitExponent (top - 16), top - 16⟩

/-- What a float shows in decimal: a NaN, a signed infinity, or a signed finite decimal
(the shortest one that reads back; zero is `0`). -/
inductive Shown where
  | nan
  | infinite (negative : Bool)
  | finite (negative : Bool) (d : Decimal)
  deriving Repr, DecidableEq

/-- The shortest decimal form of a float, an exact tie broken by the rule. -/
def shortest (tie : Tie) (x : Float) : Shown :=
  match Binary64.view x with
  | .nan => .nan
  | .infinite neg => .infinite neg
  | .finite neg m e => if m = 0 then .finite neg ⟨0, 0⟩ else .finite neg (shortestOf tie m e)

end Phenotyping.Decimal
