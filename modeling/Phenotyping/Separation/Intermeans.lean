import Phenotyping.Separation.Basic
/-! # Iterative intermeans refinement

A boundary between negative and positive cells is refined from a seed split. The first
boundary is the midpoint of the two seed classes' means; each step splits the cells at the
boundary (a value at or above it is positive), and moves the boundary to the midpoint of the
new class means. Refinement stops when a step moves the boundary by at most `tolerance`
times the value range, or after `maxIterations` steps, or fails when a split leaves a class
empty. Inputs are checked first: lengths, emptiness, finiteness, a constant column, and a
seed that puts every cell in one class.
-/
namespace Phenotyping.Separation
set_option autoImplicit false

/-- The limits of refinement. -/
structure RefinementConfig where
  maxIterations : Nat := 100
  tolerance : Float := 1e-9
  deriving Inhabited

/-- A refined boundary, the steps taken, whether it settled, and how many cells lie at or
above it. -/
structure Refined where
  value : Float
  iterations : Nat
  converged : Bool
  positiveCells : Nat
  deriving Inhabited

/-- The smaller of two values; of two equal values, the second. -/
def lesser (a b : Float) : Float := if a < b then a else b

/-- The larger of two values; of two equal values, the second. -/
def greater (a b : Float) : Float := if a > b then a else b

def firstNonFinite (values : List Float) : Option Nat :=
  values.findIdx? fun v => !Binary64.isFinite v

/-- The least and greatest value, refusing an empty, non-finite or constant column. -/
def validatedRange (values : List Float) : Except Degenerate (Float × Float) :=
  if values = [] then .error .empty
  else match firstNonFinite values with
    | some i => .error (.nonFinite i)
    | none =>
      let lo := values.foldl lesser Binary64.infinity
      let hi := values.foldl greater Binary64.negInfinity
      if lo == hi then .error (.constant lo) else .ok (lo, hi)

def sumsAt (chunk : Nat) (values : List Float) (boundary : Float) : SplitSums :=
  chunkedSums chunk (values.map fun v => (v, decide (v ≥ boundary)))

/-- Up to `fuel` refinement steps from `boundary`, after `done` steps: the final boundary,
the number of steps, and whether it settled. -/
def refineSteps (chunk : Nat) (values : List Float) (step : Float) :
    Nat → Float → Nat → Except Degenerate (Float × Nat × Bool)
  | 0, boundary, done => .ok (boundary, done, false)
  | fuel + 1, boundary, done =>
    match (sumsAt chunk values boundary).intermean with
    | none => .error (.collapsed boundary)
    | some next =>
      if Binary64.abs (next - boundary) ≤ step then .ok (next, done + 1, true)
      else refineSteps chunk values step fuel next (done + 1)

/-- Refines a boundary for `values` from the seed labels, summing in chunks of `chunk`. -/
def refine (cfg : RefinementConfig) (chunk : Nat) (values : List Float) (seeds : List Bool) :
    Except SeparationError Refined := do
  if values.length ≠ seeds.length then
    throw (.seedLengthMismatch values.length seeds.length)
  let (lo, hi) ← (validatedRange values).mapError .degenerate
  let seedSums := chunkedSums chunk (values.zip seeds)
  let start ← match seedSums.intermean with
    | some t => pure t
    | none => throw (.degenerate (.singleSeedClass (seedSums.positiveCount > 0)))
  let (boundary, iterations, converged) ←
    (refineSteps chunk values (cfg.tolerance * (hi - lo)) cfg.maxIterations start 0).mapError
      .degenerate
  pure ⟨boundary, iterations, converged, (sumsAt chunk values boundary).positiveCount⟩

end Phenotyping.Separation
