import Phenotyping.Binary64
import Phenotyping.Decimal.Notation
/-! # Splitting intensities into two classes

The pieces shared by seeding and refinement: the ways a channel's values can fail to
separate, and class sums. Sums are taken chunk by chunk: each chunk adds its values left to
right from zero, and the chunk totals are then added in chunk order from zero. Counts do not
depend on the chunk size; float sums may.
-/
namespace Phenotyping.Separation
set_option autoImplicit false

/-- Why a channel's values cannot be split. -/
inductive Degenerate where
  | empty
  | constant (value : Float)
  | nonFinite (cell : Nat)
  | singleSeedClass (anyPositive : Bool)
  | collapsed (boundary : Float)
  deriving Inhabited

/-- Why a split was not computed. -/
inductive SeparationError where
  | degenerate (reason : Degenerate)
  | seedLengthMismatch (cells seeds : Nat)
  | invalidSeedFraction (fraction : Float)
  deriving Inhabited

def Degenerate.message : Degenerate → String
  | .empty => "the intensity vector is empty"
  | .constant v => s!"all intensities equal {Decimal.Notation.message.render v}"
  | .nonFinite i => s!"intensity at cell {i} is not finite"
  | .singleSeedClass _ => "the seed assigns every cell to the same class"
  | .collapsed t => s!"one class became empty at boundary {Decimal.Notation.message.render t}"

def SeparationError.message : SeparationError → String
  | .degenerate r => s!"cannot separate the intensity distribution: {r.message}"
  | .seedLengthMismatch c s => s!"{c} intensities were given with {s} seed labels"
  | .invalidSeedFraction f =>
    s!"seed fraction {Decimal.Notation.message.render f} must lie strictly between 0 and 1"

/-- Sums and counts of the two classes. -/
structure SplitSums where
  positiveSum : Float := 0
  positiveCount : Nat := 0
  negativeSum : Float := 0
  negativeCount : Nat := 0
  deriving Inhabited

namespace SplitSums

def add (s : SplitSums) (v : Float) (positive : Bool) : SplitSums :=
  if positive then { s with positiveSum := s.positiveSum + v, positiveCount := s.positiveCount + 1 }
  else { s with negativeSum := s.negativeSum + v, negativeCount := s.negativeCount + 1 }

def merge (a b : SplitSums) : SplitSums :=
  ⟨a.positiveSum + b.positiveSum, a.positiveCount + b.positiveCount,
    a.negativeSum + b.negativeSum, a.negativeCount + b.negativeCount⟩

/-- The midpoint of the two class means, if both classes have members. -/
def intermean (s : SplitSums) : Option Float :=
  if s.positiveCount = 0 ∨ s.negativeCount = 0 then none
  else
    let pos := s.positiveSum / Float.ofNat s.positiveCount
    let neg := s.negativeSum / Float.ofNat s.negativeCount
    some (0.5 * (pos + neg))

def ofLabelled (xs : List (Float × Bool)) : SplitSums :=
  xs.foldl (fun s p => s.add p.1 p.2) {}

end SplitSums

/-- Consecutive pieces of `size` elements (the last may be shorter); a size of zero acts
as one. -/
def chunks {α : Type} (size : Nat) : List α → List (List α)
  | [] => []
  | x :: rest => (x :: rest).take (max size 1) :: chunks size ((x :: rest).drop (max size 1))
termination_by xs => xs.length
decreasing_by simp only [List.length_drop, List.length_cons]; omega

def chunkedSums (size : Nat) (xs : List (Float × Bool)) : SplitSums :=
  (chunks size xs).foldl (fun acc c => acc.merge (SplitSums.ofLabelled c)) {}

end Phenotyping.Separation
