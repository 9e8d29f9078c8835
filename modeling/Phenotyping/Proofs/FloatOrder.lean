import Mathlib
import Phenotyping.Binary64
/-! # Comparing binary64 values

`<` and `==` on floats compare the unpacked values of the logical float model: a NaN is
unordered, the two zeros are equal, and otherwise the class (−∞, negative, zero, positive,
+∞) decides, then the exponent and then the significand, read upward for positive values and
downward for negative ones. On values that are not NaN these comparisons are therefore those
of a position triple in lexicographic order: `<` is a strict total order up to `==`, which is
equality of positions. A value whose exponent field is not all ones is not a NaN, and no value
lies above `+∞` or below `−∞`.
-/
namespace Phenotyping.Binary64
set_option autoImplicit false

open Float.Model

/-- Where an unpacked value stands among the values that are not NaN: its class, then its
exponent and significand, negated for negative values. -/
def position : UnpackedFloat → Int × Int × Int
  | .infinity .negative => (-2, 0, 0)
  | .finite .negative m e _ => (-1, -e, -m)
  | .zero _ => (0, 0, 0)
  | .finite .positive m e _ => (1, e, m)
  | .infinity .positive => (2, 0, 0)
  | .notANumber => (0, 0, 0)

def Below (p q : Int × Int × Int) : Prop :=
  p.1 < q.1 ∨ p.1 = q.1 ∧ (p.2.1 < q.2.1 ∨ p.2.1 = q.2.1 ∧ p.2.2 < q.2.2)

theorem below_irrefl (p : Int × Int × Int) : ¬ Below p p := by
  unfold Below; omega

theorem below_asymm {p q : Int × Int × Int} (h : Below p q) : ¬ Below q p := by
  unfold Below at *; omega

theorem not_below_trans {p q r : Int × Int × Int} (hqp : ¬ Below q p) (hrq : ¬ Below r q) :
    ¬ Below r p := by
  unfold Below at *; omega

theorem eq_of_not_below {p q : Int × Int × Int} (hpq : ¬ Below p q) (hqp : ¬ Below q p) : p = q := by
  obtain ⟨a, b, c⟩ := p
  obtain ⟨d, e, f⟩ := q
  unfold Below at hpq hqp
  dsimp only at hpq hqp
  simp only [Prod.mk.injEq]
  omega

def Ordered (x : Float) : Prop := x.toModel.unpack ≠ .notANumber

def positionOf (x : Float) : Int × Int × Int := position x.toModel.unpack

theorem compare_sign_eq_lt {s t : UnpackedFloat.Sign} :
    compare s t = .lt ↔ s = .negative ∧ t = .positive := by
  cases s <;> cases t <;> simp [compare]

theorem compare_sign_eq_eq {s t : UnpackedFloat.Sign} : compare s t = .eq ↔ s = t := by
  cases s <;> cases t <;> simp [compare]

theorem not_below_infinities (u : UnpackedFloat) :
    ¬ Below (position (.infinity .positive)) (position u) ∧
      ¬ Below (position u) (position (.infinity .negative)) := by
  rcases u with ⟨_ | _⟩ | _ | ⟨_ | _⟩ | ⟨_ | _, m, e, hm⟩ <;> simp [position, Below]

/-- Of two values that are not NaN, the first is below the second exactly when its position is. -/
theorem compare_eq_some_lt_iff {a b : UnpackedFloat} (ha : a ≠ .notANumber) (hb : b ≠ .notANumber) :
    a.compare b = some .lt ↔ Below (position a) (position b) := by
  -- six kinds of value on each side; each pair is a fact about the position triples
  rcases a with ⟨_ | _⟩ | _ | ⟨_ | _⟩ | ⟨_ | _, m, e, hm⟩ <;>
  rcases b with ⟨_ | _⟩ | _ | ⟨_ | _⟩ | ⟨_ | _, n, f, hn⟩ <;>
  simp_all [UnpackedFloat.compare, position, Below, compare_sign_eq_lt, Ordering.then_eq_lt,
    Ordering.swap_eq_lt, Ordering.then_eq_gt, Int.compare_eq_lt, Int.compare_eq_gt,
    Nat.compare_eq_lt, Nat.compare_eq_gt]

theorem compare_eq_some_eq_iff {a b : UnpackedFloat} (ha : a ≠ .notANumber) (hb : b ≠ .notANumber) :
    a.compare b = some .eq ↔ position a = position b := by
  rcases a with ⟨_ | _⟩ | _ | ⟨_ | _⟩ | ⟨_ | _, m, e, hm⟩ <;>
  rcases b with ⟨_ | _⟩ | _ | ⟨_ | _⟩ | ⟨_ | _, n, f, hn⟩ <;>
  simp_all [UnpackedFloat.compare, position, compare_sign_eq_eq]

theorem lt_iff_compare (x y : Float) :
    x < y ↔ x.toModel.unpack.compare y.toModel.unpack = some .lt := by
  change decide (x.toModel < y.toModel) = true ↔ _
  rw [decide_eq_true_iff]
  change (x.toModel.unpack.compare y.toModel.unpack == some .lt) = true ↔ _
  exact beq_iff_eq

theorem beq_iff_compare (x y : Float) :
    (x == y) = true ↔ x.toModel.unpack.compare y.toModel.unpack = some .eq := by
  change (x.toModel.unpack.compare y.toModel.unpack == some .eq) = true ↔ _
  exact beq_iff_eq

section Ordered

variable {x y : Float}

theorem lt_iff_below (hx : Ordered x) (hy : Ordered y) : x < y ↔ Below (positionOf x) (positionOf y) := by
  rw [lt_iff_compare, compare_eq_some_lt_iff hx hy]
  rfl

theorem beq_iff_positionOf_eq (hx : Ordered x) (hy : Ordered y) :
    (x == y) = true ↔ positionOf x = positionOf y := by
  rw [beq_iff_compare, compare_eq_some_eq_iff hx hy]
  rfl

end Ordered

theorem exponent_allOnes_of_nan {x : Float} (h : x.toModel.unpack = .notANumber) :
    @UnpackedFloat.unpackExponent Format.binary64 x.toModel.toBits.toBitVec = -1#11 := by
  unfold Float.Model.unpack UnpackedFloat.unpack at h
  simp only at h
  by_cases hne : @UnpackedFloat.unpackExponent Format.binary64 x.toModel.toBits.toBitVec = -1#11
  · exact hne
  · -- every other exponent field unpacks to a zero or a finite value
    rw [if_neg hne] at h
    repeat' split at h
    all_goals cases h

theorem ordered_of_isFinite {x : Float} (h : isFinite x = true) : Ordered x := by
  intro hnan
  have hfield := congrArg BitVec.toNat (exponent_allOnes_of_nan hnan)
  simp [UnpackedFloat.unpackExponent] at hfield
  simp [isFinite, exponentField, Float.toBits] at h
  omega

theorem not_infinity_lt (x : Float) : ¬ infinity < x := by
  rw [lt_iff_compare, show infinity.toModel.unpack = .infinity .positive from rfl]
  by_cases hx : x.toModel.unpack = .notANumber
  · simp [hx, UnpackedFloat.compare]
  · rw [compare_eq_some_lt_iff (by simp) hx]
    exact (not_below_infinities x.toModel.unpack).1

theorem not_lt_negInfinity (x : Float) : ¬ x < negInfinity := by
  rw [lt_iff_compare, show negInfinity.toModel.unpack = .infinity .negative from rfl]
  by_cases hx : x.toModel.unpack = .notANumber
  · simp [hx, UnpackedFloat.compare]
  · rw [compare_eq_some_lt_iff hx (by simp)]
    exact (not_below_infinities x.toModel.unpack).2

end Phenotyping.Binary64
