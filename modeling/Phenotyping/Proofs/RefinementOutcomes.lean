import Phenotyping.Proofs.PositiveCells
import Phenotyping.Proofs.FloatOrder
/-! # What refinement returns

Refinement checks its input in a fixed order: the seed count against the value count, then
that there are values, that all are finite (the first non-finite one is named), that they are
not all equal, and that the seed puts cells in both classes. Past these checks it refines the
boundary: either some split within the step budget leaves a class empty, or it stops with at
most the budget of steps, having settled exactly when it stopped early.

The value range is folded with the model's `lesser` and `greater`; on values that are not NaN
these keep a least and a greatest position (`Binary64.position`), so the range is empty
exactly when all values compare equal. The class counts of a chunked reduction are the
plain counts of the labels whatever the chunk size; only the float sums depend on the
chunking.
-/
namespace Phenotyping.Separation
set_option autoImplicit false

open Binary64

/-! ## Class counts -/

theorem negativeCount_chunkedSums (size : Nat) (xs : List (Float × Bool)) :
    (chunkedSums size xs).negativeCount = xs.countP (!·.2) := by
  simpa [classCount] using classCount_chunkedSums size xs false

theorem intermean_eq_none_iff (s : SplitSums) :
    s.intermean = none ↔ s.positiveCount = 0 ∨ s.negativeCount = 0 := by
  unfold SplitSums.intermean
  split <;> simp_all

theorem sumsAt_intermean_eq_none_iff (chunk : Nat) (values : List Float) (t : Float) :
    (sumsAt chunk values t).intermean = none ↔ (∀ v ∈ values, ¬ v ≥ t) ∨ ∀ v ∈ values, v ≥ t := by
  rw [intermean_eq_none_iff, positiveCount_sumsAt, sumsAt, negativeCount_chunkedSums, List.countP_map]
  simp [Function.comp_def]

/-! ## The seed split -/

section Seeds

variable {chunk : Nat} {values : List Float} {seeds : List Bool}

theorem countP_zip_snd (h : values.length = seeds.length) (p : Bool → Bool) :
    (values.zip seeds).countP (fun x => p x.2) = seeds.countP p := by
  have hsnd : (values.zip seeds).map Prod.snd = seeds := List.map_snd_zip (by omega)
  conv => rhs; rw [← hsnd]
  rw [List.countP_map]
  rfl

theorem seedSums_counts (chunk : Nat) (h : values.length = seeds.length) :
    (chunkedSums chunk (values.zip seeds)).positiveCount = seeds.count true ∧
      (chunkedSums chunk (values.zip seeds)).negativeCount = seeds.count false := by
  rw [positiveCount_chunkedSums, negativeCount_chunkedSums, List.count_eq_countP, List.count_eq_countP]
  constructor
  · simpa using countP_zip_snd h (· == true)
  · simpa using countP_zip_snd h (· == false)

theorem seedSums_intermean_eq_none_iff (h : values.length = seeds.length) :
    (chunkedSums chunk (values.zip seeds)).intermean = none ↔ ∀ s ∈ seeds, ∀ t ∈ seeds, s = t := by
  obtain ⟨hpos, hneg⟩ := seedSums_counts chunk h
  rw [intermean_eq_none_iff, hpos, hneg, List.count_eq_zero, List.count_eq_zero]
  constructor
  · rintro (hf | ht) s hs t ht'
    · -- no seed is `true`
      cases s <;> cases t <;> simp_all
    · cases s <;> cases t <;> simp_all
  · intro hall
    cases hsd : seeds.contains true
    · left; simpa using hsd
    · right
      intro hf
      have htrue : true ∈ seeds := by simpa using hsd
      exact Bool.false_ne_true (hall false hf true htrue)

theorem seedSums_positive_iff (h : values.length = seeds.length) :
    (chunkedSums chunk (values.zip seeds)).positiveCount > 0 ↔ true ∈ seeds := by
  rw [(seedSums_counts chunk h).1, gt_iff_lt, List.count_pos_iff]

end Seeds

/-! ## The value range -/

def AllFinite (values : List Float) : Prop := ∀ v ∈ values, isFinite v = true

def AllEqual (values : List Float) : Prop := ∀ v ∈ values, ∀ w ∈ values, (v == w) = true

def IsFirstNonFinite (values : List Float) (i : Nat) : Prop :=
  ∃ v, values[i]? = some v ∧ isFinite v = false ∧ ∀ w ∈ values.take i, isFinite w = true

def SeedsAgree (seeds : List Bool) : Prop := ∀ s ∈ seeds, ∀ t ∈ seeds, s = t

theorem IsFirstNonFinite.ne_nil {values : List Float} {i : Nat} (h : IsFirstNonFinite values i) :
    values ≠ [] := by
  rintro rfl
  obtain ⟨v, hv, -⟩ := h
  simp at hv

theorem IsFirstNonFinite.not_allFinite {values : List Float} {i : Nat} (h : IsFirstNonFinite values i) :
    ¬ AllFinite values := by
  obtain ⟨v, hv, hfin, -⟩ := h
  exact fun hall => by simp [hall v (List.mem_of_getElem? hv)] at hfin

theorem IsFirstNonFinite.unique {values : List Float} {i j : Nat} (hi : IsFirstNonFinite values i)
    (hj : IsFirstNonFinite values j) : i = j := by
  obtain ⟨v, hv, hvfin, hbefore_i⟩ := hi
  obtain ⟨w, hw, hwfin, hbefore_j⟩ := hj
  -- each index lies before the other unless they are equal, and the values before are finite
  have hlt : ∀ {a b : Nat} {x : Float}, values[a]? = some x → isFinite x = false →
      (∀ y ∈ values.take b, isFinite y = true) → ¬ a < b := by
    intro a b x hx hxfin hall hab
    have hmem : x ∈ values.take b := by
      rw [List.mem_iff_getElem?]
      exact ⟨a, by rw [List.getElem?_take, if_pos hab, hx]⟩
    simp [hall x hmem] at hxfin
  have h₁ := hlt hv hvfin hbefore_j
  have h₂ := hlt hw hwfin hbefore_i
  omega

theorem lesser_eq_or (a b : Float) : lesser a b = a ∨ lesser a b = b := by
  unfold lesser; split <;> simp

theorem greater_eq_or (a b : Float) : greater a b = a ∨ greater a b = b := by
  unfold greater; split <;> simp

theorem foldl_lesser_mem (a : Float) (xs : List Float) : xs.foldl lesser a ∈ a :: xs := by
  induction xs generalizing a with
  | nil => simp
  | cons x xs ih =>
    rw [List.foldl_cons]
    rcases List.mem_cons.mp (ih (lesser a x)) with h | h
    · rcases lesser_eq_or a x with hl | hl <;> rw [h, hl] <;> simp
    · exact List.mem_cons_of_mem a (List.mem_cons_of_mem x h)

theorem foldl_greater_mem (a : Float) (xs : List Float) : xs.foldl greater a ∈ a :: xs := by
  induction xs generalizing a with
  | nil => simp
  | cons x xs ih =>
    rw [List.foldl_cons]
    rcases List.mem_cons.mp (ih (greater a x)) with h | h
    · rcases greater_eq_or a x with hl | hl <;> rw [h, hl] <;> simp
    · exact List.mem_cons_of_mem a (List.mem_cons_of_mem x h)

theorem foldl_lesser_le (a : Float) (xs : List Float) (hord : ∀ v ∈ a :: xs, Ordered v) :
    ∀ v ∈ a :: xs, ¬ Below (positionOf v) (positionOf (xs.foldl lesser a)) := by
  induction xs generalizing a with
  | nil => simpa using below_irrefl (positionOf a)
  | cons x xs ih =>
    have ha := hord a List.mem_cons_self
    have hx := hord x (by simp)
    -- the running least is at or below both `a` and `x`
    have hstep : ¬ Below (positionOf a) (positionOf (lesser a x)) ∧
        ¬ Below (positionOf x) (positionOf (lesser a x)) := by
      unfold lesser
      by_cases hax : a < x
      · rw [if_pos hax]
        exact ⟨below_irrefl _, below_asymm ((lt_iff_below ha hx).mp hax)⟩
      · rw [if_neg hax]
        exact ⟨mt (lt_iff_below ha hx).mpr hax, below_irrefl _⟩
    have hm : Ordered (lesser a x) := by rcases lesser_eq_or a x with h | h <;> rw [h] <;> assumption
    have ih' := ih (lesser a x) (by
      intro v hv
      rcases List.mem_cons.mp hv with rfl | hv
      · exact hm
      · exact hord v (by simp [hv]))
    intro v hv
    rw [List.foldl_cons]
    rcases List.mem_cons.mp hv with rfl | hv
    · exact not_below_trans (ih' _ List.mem_cons_self) hstep.1
    rcases List.mem_cons.mp hv with rfl | hv
    · exact not_below_trans (ih' _ List.mem_cons_self) hstep.2
    · exact ih' v (List.mem_cons_of_mem _ hv)

theorem foldl_greater_ge (a : Float) (xs : List Float) (hord : ∀ v ∈ a :: xs, Ordered v) :
    ∀ v ∈ a :: xs, ¬ Below (positionOf (xs.foldl greater a)) (positionOf v) := by
  induction xs generalizing a with
  | nil => simpa using below_irrefl (positionOf a)
  | cons x xs ih =>
    have ha := hord a List.mem_cons_self
    have hx := hord x (by simp)
    have hstep : ¬ Below (positionOf (greater a x)) (positionOf a) ∧
        ¬ Below (positionOf (greater a x)) (positionOf x) := by
      unfold greater
      by_cases hxa : x < a
      · rw [if_pos hxa]
        exact ⟨below_irrefl _, below_asymm ((lt_iff_below hx ha).mp hxa)⟩
      · rw [if_neg hxa]
        exact ⟨mt (lt_iff_below hx ha).mpr hxa, below_irrefl _⟩
    have hm : Ordered (greater a x) := by rcases greater_eq_or a x with h | h <;> rw [h] <;> assumption
    have ih' := ih (greater a x) (by
      intro v hv
      rcases List.mem_cons.mp hv with rfl | hv
      · exact hm
      · exact hord v (by simp [hv]))
    intro v hv
    rw [List.foldl_cons]
    rcases List.mem_cons.mp hv with rfl | hv
    · exact not_below_trans hstep.1 (ih' _ List.mem_cons_self)
    rcases List.mem_cons.mp hv with rfl | hv
    · exact not_below_trans hstep.2 (ih' _ List.mem_cons_self)
    · exact ih' v (List.mem_cons_of_mem _ hv)

theorem lesser_infinity (v : Float) : lesser infinity v = v := by
  rw [lesser, if_neg (not_infinity_lt v)]

theorem greater_negInfinity (v : Float) : greater negInfinity v = v := by
  rw [greater, if_neg (not_lt_negInfinity v)]

theorem range_beq_iff {v₀ : Float} {rest : List Float} (hfin : ∀ v ∈ v₀ :: rest, isFinite v = true) :
    ((v₀ :: rest).foldl lesser infinity == (v₀ :: rest).foldl greater negInfinity) = true ↔
      ∀ v ∈ v₀ :: rest, ∀ w ∈ v₀ :: rest, (v == w) = true := by
  have hord : ∀ v ∈ v₀ :: rest, Ordered v := fun v hv => ordered_of_isFinite (hfin v hv)
  rw [List.foldl_cons, List.foldl_cons, lesser_infinity, greater_negInfinity]
  have hlo := foldl_lesser_mem v₀ rest
  have hhi := foldl_greater_mem v₀ rest
  rw [beq_iff_positionOf_eq (hord _ hlo) (hord _ hhi)]
  constructor
  · intro hrange v hv w hw
    -- every value sits between the least and the greatest, which share one position
    have hpos : ∀ u ∈ v₀ :: rest, positionOf u = positionOf (rest.foldl lesser v₀) := by
      intro u hu
      refine eq_of_not_below (foldl_lesser_le v₀ rest hord u hu) ?_
      rw [hrange]
      exact foldl_greater_ge v₀ rest hord u hu
    rw [beq_iff_positionOf_eq (hord v hv) (hord w hw), hpos v hv, hpos w hw]
  · intro hall
    exact (beq_iff_positionOf_eq (hord _ hlo) (hord _ hhi)).mp (hall _ hlo _ hhi)

theorem firstNonFinite_eq_some_iff {values : List Float} {i : Nat} :
    firstNonFinite values = some i ↔ ∃ v, values[i]? = some v ∧ isFinite v = false ∧
      ∀ w ∈ values.take i, isFinite w = true := by
  induction values generalizing i with
  | nil => simp [firstNonFinite]
  | cons x xs ih =>
    cases i with
    | zero => simp [firstNonFinite, List.findIdx?_cons]
    | succ i =>
      have hrest : firstNonFinite (x :: xs) = some (i + 1) ↔
          isFinite x = true ∧ firstNonFinite xs = some i := by
        simp only [firstNonFinite, List.findIdx?_cons]
        cases isFinite x <;> simp
      rw [hrest, ih]
      simp [and_left_comm]

theorem firstNonFinite_eq_none_iff {values : List Float} :
    firstNonFinite values = none ↔ ∀ v ∈ values, isFinite v = true := by
  simp [firstNonFinite, List.findIdx?_eq_none_iff]

theorem validatedRange_cases (values : List Float) :
    (values = [] ∧ validatedRange values = .error .empty) ∨
    (∃ i, IsFirstNonFinite values i ∧ validatedRange values = .error (.nonFinite i)) ∨
    (values ≠ [] ∧ AllFinite values ∧ AllEqual values ∧ ∃ c, validatedRange values = .error (.constant c)) ∨
    (values ≠ [] ∧ AllFinite values ∧ ¬ AllEqual values ∧ ∃ lo hi, validatedRange values = .ok (lo, hi)) := by
  cases values with
  | nil => exact .inl ⟨rfl, rfl⟩
  | cons v₀ rest =>
    cases hf : firstNonFinite (v₀ :: rest) with
    | some i =>
      refine .inr (.inl ⟨i, firstNonFinite_eq_some_iff.mp hf, ?_⟩)
      simp [validatedRange, hf]
    | none =>
      have hfin := firstNonFinite_eq_none_iff.mp hf
      by_cases heq : ((v₀ :: rest).foldl lesser infinity == (v₀ :: rest).foldl greater negInfinity) = true
      · refine .inr (.inr (.inl ⟨List.cons_ne_nil _ _, hfin, (range_beq_iff hfin).mp heq,
          (v₀ :: rest).foldl lesser infinity, ?_⟩))
        simp only [validatedRange, reduceCtorEq, if_false, hf, heq, if_true]
      · refine .inr (.inr (.inr ⟨List.cons_ne_nil _ _, hfin, mt (range_beq_iff hfin).mpr heq,
          (v₀ :: rest).foldl lesser infinity, (v₀ :: rest).foldl greater negInfinity, ?_⟩))
        simp only [validatedRange, reduceCtorEq, if_false, hf, heq]

/-! ## Refinement steps -/

/-- The boundary after `j` refinement steps from `b`, if no split before it leaves a class
empty. -/
def boundaryAfter (chunk : Nat) (values : List Float) : Nat → Float → Option Float
  | 0, b => some b
  | j + 1, b => (sumsAt chunk values b).intermean.bind (boundaryAfter chunk values j)

theorem refineSteps_cases (chunk : Nat) (values : List Float) (step : Float) (fuel : Nat) (b : Float)
    (done : Nat) :
    (∃ t, refineSteps chunk values step fuel b done = .error (.collapsed t) ∧
        ∃ j < fuel, boundaryAfter chunk values j b = some t ∧ (sumsAt chunk values t).intermean = none) ∨
    (∃ b' it conv, refineSteps chunk values step fuel b done = .ok (b', it, conv) ∧
        done ≤ it ∧ it ≤ done + fuel ∧ (conv = true → done + 1 ≤ it) ∧
        (conv = false → it = done + fuel)) := by
  induction fuel generalizing b done with
  | zero => exact .inr ⟨b, done, false, rfl, by omega, by omega, by simp, fun _ => by omega⟩
  | succ fuel ih =>
    cases hm : (sumsAt chunk values b).intermean with
    | none => exact .inl ⟨b, by simp [refineSteps, hm], 0, by omega, rfl, hm⟩
    | some next =>
      by_cases hc : Binary64.abs (next - b) ≤ step
      · exact .inr ⟨next, done + 1, true, by simp [refineSteps, hm, hc], by omega, by omega,
          fun _ => by omega, by simp⟩
      · -- not settled: the remaining fuel runs from the new boundary, one step later
        have hrun : refineSteps chunk values step (fuel + 1) b done =
            refineSteps chunk values step fuel next (done + 1) := by
          simp [refineSteps, hm, hc]
        rcases ih next (done + 1) with ⟨t, he, j, hj, hb, ht⟩ | ⟨b', it, conv, he, h₁, h₂, h₃, h₄⟩
        · exact .inl ⟨t, hrun ▸ he, j + 1, by omega, by simp [boundaryAfter, hm, hb], ht⟩
        · exact .inr ⟨b', it, conv, hrun ▸ he, by omega, by omega, fun h => by have := h₃ h; omega,
            fun h => by have := h₄ h; omega⟩

/-! ## Outcomes -/

section Outcomes

variable {cfg : RefinementConfig} {chunk : Nat} {values : List Float} {seeds : List Bool}

theorem refine_of_length_ne (h : values.length ≠ seeds.length) :
    refine cfg chunk values seeds = .error (.seedLengthMismatch values.length seeds.length) := by
  simp [refine, h, throw, throwThe, MonadExceptOf.throw, bind, Except.bind]

theorem refine_of_range_error (h : values.length = seeds.length) {d : Degenerate}
    (hd : validatedRange values = .error d) : refine cfg chunk values seeds = .error (.degenerate d) := by
  simp [refine, h, hd, bind, Except.bind, Except.mapError]

theorem refine_of_single_class (h : values.length = seeds.length) {lo hi : Float}
    (hr : validatedRange values = .ok (lo, hi))
    (hs : (chunkedSums chunk (values.zip seeds)).intermean = none) :
    refine cfg chunk values seeds = .error (.degenerate (.singleSeedClass
      ((chunkedSums chunk (values.zip seeds)).positiveCount > 0))) := by
  simp [refine, h, hr, hs, bind, Except.bind, Except.mapError, throw, throwThe, MonadExceptOf.throw]

theorem refine_of_start (h : values.length = seeds.length) {lo hi : Float}
    (hr : validatedRange values = .ok (lo, hi)) {start : Float}
    (hs : (chunkedSums chunk (values.zip seeds)).intermean = some start) :
    refine cfg chunk values seeds =
      ((refineSteps chunk values (cfg.tolerance * (hi - lo)) cfg.maxIterations start 0).mapError
        .degenerate).map fun p => ⟨p.1, p.2.1, p.2.2, (sumsAt chunk values p.1).positiveCount⟩ := by
  simp only [refine, h, ne_eq, not_true_eq_false, if_false, hr, hs, bind, Except.bind,
    Except.mapError, pure, Except.pure]
  cases refineSteps chunk values (cfg.tolerance * (hi - lo)) cfg.maxIterations start 0 <;> rfl

/-- Every outcome of refinement, each with the condition under which it is the outcome: the
checks in order, and past them a collapse or a refined boundary. -/
theorem refine_cases (cfg : RefinementConfig) (chunk : Nat) (values : List Float) (seeds : List Bool) :
    (values.length ≠ seeds.length ∧
      refine cfg chunk values seeds = .error (.seedLengthMismatch values.length seeds.length)) ∨
    (values.length = seeds.length ∧ values = [] ∧
      refine cfg chunk values seeds = .error (.degenerate .empty)) ∨
    (values.length = seeds.length ∧ ∃ i, IsFirstNonFinite values i ∧
      refine cfg chunk values seeds = .error (.degenerate (.nonFinite i))) ∨
    (values.length = seeds.length ∧ values ≠ [] ∧ AllFinite values ∧ AllEqual values ∧
      ∃ c, refine cfg chunk values seeds = .error (.degenerate (.constant c))) ∨
    (values.length = seeds.length ∧ values ≠ [] ∧ AllFinite values ∧ ¬ AllEqual values ∧
      SeedsAgree seeds ∧
      refine cfg chunk values seeds = .error (.degenerate (.singleSeedClass (decide (true ∈ seeds))))) ∨
    (values.length = seeds.length ∧ values ≠ [] ∧ AllFinite values ∧ ¬ AllEqual values ∧
      ¬ SeedsAgree seeds ∧
      ((∃ t, refine cfg chunk values seeds = .error (.degenerate (.collapsed t)) ∧
        ∃ start, (chunkedSums chunk (values.zip seeds)).intermean = some start ∧
        ∃ j < cfg.maxIterations, boundaryAfter chunk values j start = some t ∧
          ((∀ v ∈ values, ¬ v ≥ t) ∨ ∀ v ∈ values, v ≥ t)) ∨
      (∃ r, refine cfg chunk values seeds = .ok r ∧ r.iterations ≤ cfg.maxIterations ∧
        (r.converged = true → 1 ≤ r.iterations) ∧
        (r.converged = false → r.iterations = cfg.maxIterations) ∧
        r.positiveCells = values.countP fun v => decide (v ≥ r.value)))) := by
  by_cases hlen : values.length = seeds.length
  swap
  · exact .inl ⟨hlen, refine_of_length_ne hlen⟩
  rcases validatedRange_cases values with ⟨hnil, hv⟩ | ⟨i, hi, hv⟩ | ⟨hne, hfin, heq, c, hv⟩ |
    ⟨hne, hfin, hneq, lo, hi, hv⟩
  · exact .inr (.inl ⟨hlen, hnil, refine_of_range_error hlen hv⟩)
  · exact .inr (.inr (.inl ⟨hlen, i, hi, refine_of_range_error hlen hv⟩))
  · exact .inr (.inr (.inr (.inl ⟨hlen, hne, hfin, heq, c, refine_of_range_error hlen hv⟩)))
  -- the range is fine: the seed split decides between a single class and refinement
  cases hs : (chunkedSums chunk (values.zip seeds)).intermean with
  | none =>
    refine .inr (.inr (.inr (.inr (.inl ⟨hlen, hne, hfin, hneq,
      (seedSums_intermean_eq_none_iff hlen).mp hs, ?_⟩))))
    rw [refine_of_single_class hlen hv hs, decide_eq_decide.mpr (seedSums_positive_iff hlen)]
  | some start =>
    have hsplit : ¬ SeedsAgree seeds := fun h => by
      rw [(seedSums_intermean_eq_none_iff hlen).mpr h] at hs
      cases hs
    refine .inr (.inr (.inr (.inr (.inr ⟨hlen, hne, hfin, hneq, hsplit, ?_⟩))))
    rcases refineSteps_cases chunk values (cfg.tolerance * (hi - lo)) cfg.maxIterations start 0 with
      ⟨t, he, j, hj, hb, ht⟩ | ⟨b, it, conv, he, -, h₂, h₃, h₄⟩
    · exact .inl ⟨t, by rw [refine_of_start hlen hv hs, he]; rfl, start, rfl, j, hj, hb,
        (sumsAt_intermean_eq_none_iff chunk values t).mp ht⟩
    · have hok : refine cfg chunk values seeds = .ok ⟨b, it, conv, (sumsAt chunk values b).positiveCount⟩ := by
        rw [refine_of_start hlen hv hs, he]; rfl
      exact .inr ⟨_, hok, by simpa using h₂, fun h => by simpa using h₃ h, fun h => by simpa using h₄ h,
        positiveCells_of_refine hok⟩

/-! ## Each outcome and its condition -/

theorem refine_eq_seedLengthMismatch_iff :
    refine cfg chunk values seeds = .error (.seedLengthMismatch values.length seeds.length) ↔
      values.length ≠ seeds.length := by
  rcases refine_cases cfg chunk values seeds with ⟨hlen, he⟩ | ⟨hlen, -, he⟩ | ⟨hlen, _, -, he⟩ |
    ⟨hlen, -, -, -, _, he⟩ | ⟨hlen, -, -, -, -, he⟩ | ⟨hlen, -, -, -, -, ⟨_, he, -⟩ | ⟨_, he, -⟩⟩ <;>
    rw [he] <;> simp [hlen]

theorem refine_eq_empty_iff :
    refine cfg chunk values seeds = .error (.degenerate .empty) ↔
      values.length = seeds.length ∧ values = [] := by
  rcases refine_cases cfg chunk values seeds with ⟨hlen, he⟩ | ⟨hlen, hnil, he⟩ | ⟨hlen, i, hi, he⟩ |
    ⟨hlen, hne, -, -, _, he⟩ | ⟨hlen, hne, -, -, -, he⟩ | ⟨hlen, hne, -, -, -, ⟨_, he, -⟩ | ⟨_, he, -⟩⟩ <;>
    rw [he]
  · simp [hlen]
  · exact iff_of_true rfl ⟨hlen, hnil⟩
  · simp [hi.ne_nil]
  all_goals simp [hne]

theorem refine_eq_nonFinite_iff (i : Nat) :
    refine cfg chunk values seeds = .error (.degenerate (.nonFinite i)) ↔
      values.length = seeds.length ∧ IsFirstNonFinite values i := by
  rcases refine_cases cfg chunk values seeds with ⟨hlen, he⟩ | ⟨hlen, hnil, he⟩ | ⟨hlen, j, hj, he⟩ |
    ⟨hlen, -, hfin, -, _, he⟩ | ⟨hlen, -, hfin, -, -, he⟩ | ⟨hlen, -, hfin, -, -, ⟨_, he, -⟩ | ⟨_, he, -⟩⟩ <;>
    rw [he]
  · simp [hlen]
  · subst hnil
    simp [IsFirstNonFinite]
  · simp only [Except.error.injEq, SeparationError.degenerate.injEq, Degenerate.nonFinite.injEq]
    exact ⟨fun h => h ▸ ⟨hlen, hj⟩, fun h => hj.unique h.2⟩
  all_goals simpa using fun _ hi => hi.not_allFinite hfin

theorem refine_eq_constant_iff :
    (∃ c, refine cfg chunk values seeds = .error (.degenerate (.constant c))) ↔
      values.length = seeds.length ∧ values ≠ [] ∧ AllFinite values ∧ AllEqual values := by
  rcases refine_cases cfg chunk values seeds with ⟨hlen, he⟩ | ⟨hlen, hnil, he⟩ | ⟨hlen, i, hi, he⟩ |
    ⟨hlen, hne, hfin, heq, c, he⟩ | ⟨hlen, -, -, hneq, -, he⟩ |
    ⟨hlen, -, -, hneq, -, ⟨_, he, -⟩ | ⟨_, he, -⟩⟩ <;>
    rw [he]
  · simp [hlen]
  · simp [hnil]
  · simp [hi.not_allFinite]
  · simp [hlen, hne, hfin, heq]
  all_goals simp [hneq]

theorem refine_eq_singleSeedClass_iff (b : Bool) :
    refine cfg chunk values seeds = .error (.degenerate (.singleSeedClass b)) ↔
      values.length = seeds.length ∧ values ≠ [] ∧ AllFinite values ∧ ¬ AllEqual values ∧
        SeedsAgree seeds ∧ (b = true ↔ true ∈ seeds) := by
  rcases refine_cases cfg chunk values seeds with ⟨hlen, he⟩ | ⟨hlen, hnil, he⟩ | ⟨hlen, i, hi, he⟩ |
    ⟨hlen, -, -, heq, _, he⟩ | ⟨hlen, hne, hfin, hneq, hagree, he⟩ |
    ⟨hlen, -, -, -, hsplit, ⟨_, he, -⟩ | ⟨_, he, -⟩⟩ <;>
    rw [he]
  · simp [hlen]
  · simp [hnil]
  · simp [hi.not_allFinite]
  · simp [heq]
  · cases b <;> simp [hlen, hne, hfin, hneq, hagree, eq_comm]
  all_goals simp [hsplit]

end Outcomes

/-- Refinement's outcome, in the order of its checks: a seed count that differs from the value
count; no values; the first value that is not finite; values that all compare equal; seeds all
in one class, reported with whether that class is positive. Past these checks refinement
either reaches, within its step budget, a boundary whose split leaves a class empty, or
returns a boundary after at most the budget of steps, having settled exactly when it stopped
before the budget ran out, with the number of values at or above it. The class counts of a
chunked reduction are the counts of the labels whatever the chunk size. -/
theorem refine_outcomes (cfg : RefinementConfig) (chunk : Nat) (values : List Float) (seeds : List Bool) :
    (refine cfg chunk values seeds = .error (.seedLengthMismatch values.length seeds.length) ↔
      values.length ≠ seeds.length) ∧
    (refine cfg chunk values seeds = .error (.degenerate .empty) ↔
      values.length = seeds.length ∧ values = []) ∧
    (∀ i, refine cfg chunk values seeds = .error (.degenerate (.nonFinite i)) ↔
      values.length = seeds.length ∧ IsFirstNonFinite values i) ∧
    ((∃ c, refine cfg chunk values seeds = .error (.degenerate (.constant c))) ↔
      values.length = seeds.length ∧ values ≠ [] ∧ AllFinite values ∧ AllEqual values) ∧
    (∀ b, refine cfg chunk values seeds = .error (.degenerate (.singleSeedClass b)) ↔
      values.length = seeds.length ∧ values ≠ [] ∧ AllFinite values ∧ ¬ AllEqual values ∧
        SeedsAgree seeds ∧ (b = true ↔ true ∈ seeds)) ∧
    (values.length = seeds.length → values ≠ [] → AllFinite values → ¬ AllEqual values →
      ¬ SeedsAgree seeds →
      (∃ t, refine cfg chunk values seeds = .error (.degenerate (.collapsed t)) ∧
        ∃ start, (chunkedSums chunk (values.zip seeds)).intermean = some start ∧
        ∃ j < cfg.maxIterations, boundaryAfter chunk values j start = some t ∧
          ((∀ v ∈ values, ¬ v ≥ t) ∨ ∀ v ∈ values, v ≥ t)) ∨
      (∃ r, refine cfg chunk values seeds = .ok r ∧ r.iterations ≤ cfg.maxIterations ∧
        (r.converged = true → 1 ≤ r.iterations) ∧
        (r.converged = false → r.iterations = cfg.maxIterations) ∧
        r.positiveCells = values.countP fun v => decide (v ≥ r.value))) ∧
    (∀ size (xs : List (Float × Bool)), (chunkedSums size xs).positiveCount = xs.countP (·.2) ∧
      (chunkedSums size xs).negativeCount = xs.countP (!·.2)) := by
  refine ⟨refine_eq_seedLengthMismatch_iff, refine_eq_empty_iff, refine_eq_nonFinite_iff,
    refine_eq_constant_iff, refine_eq_singleSeedClass_iff, ?_,
    fun size xs => ⟨positiveCount_chunkedSums size xs, negativeCount_chunkedSums size xs⟩⟩
  intro hlen hne hfin hneq hsplit
  -- every earlier case contradicts one of the checks passed
  rcases refine_cases cfg chunk values seeds with ⟨hlen', -⟩ | ⟨-, hnil, -⟩ | ⟨-, i, hi, -⟩ |
    ⟨-, -, -, heq, _⟩ | ⟨-, -, -, -, hagree, -⟩ | ⟨-, -, -, -, -, hrun⟩
  · exact absurd hlen hlen'
  · exact absurd hnil hne
  · exact absurd hfin hi.not_allFinite
  · exact absurd heq hneq
  · exact absurd hagree hsplit
  · exact hrun

end Phenotyping.Separation
