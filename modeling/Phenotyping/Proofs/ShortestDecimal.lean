import Mathlib
import Phenotyping.Decimal.Shortest
/-! # The shortest decimal lies in the rounding interval

The digit search compares decimals with dyadic values by cross-multiplying whole numbers.
Read as rationals, each comparison is the comparison of `c · 10^p` with `x · 2^s`, and the
grid floor is the whole part of `x · 2^s / 10^p`. So a decimal that the search returns lies
in the rounding interval of the float, with the interval's ends when they belong to it.

The search always returns: at seventeen significant digits the grid step is below the
narrower half of the interval, so one of the two grid neighbours of the value lies in it.
That needs the decimal exponent estimate never to exceed the value's order of magnitude,
which comes down to two facts about powers, `10^643 ≤ 2^2136` and `2^485 ≤ 10^146`, bounds
for `log₁₀ 2` on either side of the estimate's `315653 / 2^20`.
-/
namespace Phenotyping.Decimal
set_option autoImplicit false

/-! ## Exact values -/

def val (d : Decimal) : ℚ := d.digits * (10 : ℚ) ^ d.exponent

theorem zpow_eq_div {b : ℚ} (hb : b ≠ 0) (p : Int) : b ^ p = b ^ p.toNat / b ^ (-p).toNat := by
  have hp : p = (p.toNat : Int) - ((-p).toNat : Int) := by omega
  conv_lhs => rw [hp]
  rw [zpow_sub₀ hb, zpow_natCast, zpow_natCast]

theorem compare_div_div {a b c d : ℚ} (hb : 0 < b) (hd : 0 < d) :
    compare (a / b) (c / d) = compare (a * d) (c * b) := by
  rcases lt_trichotomy (a * d) (c * b) with h | h | h
  · rw [compare_lt_iff_lt.mpr h, compare_lt_iff_lt]
    rwa [div_lt_div_iff₀ hb hd]
  · rw [compare_eq_iff_eq.mpr h, compare_eq_iff_eq]
    rwa [div_eq_div_iff hb.ne' hd.ne']
  · rw [compare_gt_iff_gt.mpr h, compare_gt_iff_gt]
    exact (div_lt_div_iff₀ hd hb).mpr h

theorem compare_natCast (a b : ℕ) : compare (a : ℚ) b = compare a b := by
  rcases lt_trichotomy a b with h | rfl | h
  · rw [compare_lt_iff_lt.mpr h, compare_lt_iff_lt]
    exact_mod_cast h
  · simp
  · rw [compare_gt_iff_gt.mpr h, compare_gt_iff_gt]
    exact_mod_cast h

/-- Cross-multiplying compares the two rationals. -/
theorem compareDyadic_eq (c : Nat) (p : Int) (x : Nat) (s : Int) :
    compareDyadic c p x s = compare ((c : ℚ) * 10 ^ p) ((x : ℚ) * 2 ^ s) := by
  rw [zpow_eq_div (by norm_num) p, zpow_eq_div (by norm_num) s, ← mul_div_assoc, ← mul_div_assoc,
    compare_div_div (by positivity) (by positivity), compareDyadic, ← compare_natCast]
  push_cast [Nat.pow_eq]
  rfl

theorem le_dyadic_iff (c : Nat) (p : Int) (x : Nat) (s : Int) :
    (c : ℚ) * 10 ^ p ≤ (x : ℚ) * 2 ^ s ↔ compareDyadic c p x s ≠ .gt := by
  rw [compareDyadic_eq, ne_eq, compare_gt_iff_gt, not_lt]

theorem dyadic_lt_iff (c : Nat) (p : Int) (x : Nat) (s : Int) :
    (x : ℚ) * 2 ^ s < (c : ℚ) * 10 ^ p ↔ compareDyadic c p x s = .gt := by
  rw [compareDyadic_eq, compare_gt_iff_gt]

theorem floorOnGrid_spec (x : Nat) (s p : Int) :
    (floorOnGrid x s p : ℚ) * 10 ^ p ≤ (x : ℚ) * 2 ^ s ∧
      (x : ℚ) * 2 ^ s < ((floorOnGrid x s p + 1 : Nat) : ℚ) * 10 ^ p := by
  have hden : 0 < Nat.pow 10 p.toNat * Nat.pow 2 (-s).toNat := by
    simp only [Nat.pow_eq]
    positivity
  constructor
  · rw [le_dyadic_iff, compareDyadic, Ne, compare_gt_iff_gt, not_lt, Nat.mul_assoc]
    exact Nat.div_mul_le_self _ _
  · rw [dyadic_lt_iff, compareDyadic, compare_gt_iff_gt, floorOnGrid]
    have h := Nat.lt_mul_div_succ (x * Nat.pow 2 s.toNat * Nat.pow 10 (-p).toNat) hden
    exact lt_of_lt_of_eq h (by ring)

theorem trimZeros_val (c : Nat) (p : Int) :
    ((trimZeros c p).1 : ℚ) * 10 ^ (trimZeros c p).2 = c * 10 ^ p := by
  fun_induction trimZeros c p with
  | case1 c p h ih =>
    rw [ih, zpow_add₀ (by norm_num), zpow_one]
    have hc : c = c / 10 * 10 := (Nat.div_mul_cancel (Nat.dvd_of_mod_eq_zero h.2)).symm
    conv_rhs => rw [hc]
    push_cast
    ring
  | case2 => rfl

theorem normalize_val (d : Decimal) : d.normalize.val = d.val := by
  unfold normalize
  split
  · rename_i h
    simp [val, h]
  · exact trimZeros_val d.digits d.exponent

/-! ## The rounding interval -/

namespace Interval

/-- The rationals of an interval: strictly inside, or at an end when the ends belong to it. -/
def Admits (iv : Interval) (v : ℚ) : Prop :=
  ((iv.low : ℚ) * 2 ^ iv.unitExponent < v ∨ iv.closed ∧ (iv.low : ℚ) * 2 ^ iv.unitExponent = v) ∧
    (v < (iv.high : ℚ) * 2 ^ iv.unitExponent ∨
      iv.closed ∧ v = (iv.high : ℚ) * 2 ^ iv.unitExponent)

theorem contains_iff (iv : Interval) (c : Nat) (p : Int) :
    iv.contains c p = true ↔ iv.Admits ((c : ℚ) * 10 ^ p) := by
  unfold contains Admits
  rw [compareDyadic_eq, compareDyadic_eq, Bool.and_eq_true]
  apply and_congr
  · rcases lt_trichotomy ((c : ℚ) * 10 ^ p) ((iv.low : ℚ) * 2 ^ iv.unitExponent) with h | h | h
    · simp [compare_lt_iff_lt.mpr h, h.ne', not_lt.mpr h.le]
    · simp [h]
    · simp [compare_gt_iff_gt.mpr h, h]
  · rcases lt_trichotomy ((c : ℚ) * 10 ^ p) ((iv.high : ℚ) * 2 ^ iv.unitExponent) with h | h | h
    · simp [compare_lt_iff_lt.mpr h, h]
    · simp [h]
    · simp [compare_gt_iff_gt.mpr h, h.ne', not_lt.mpr h.le]

theorem contains_of_pickOnGrid {tie : Tie} {iv : Interval} {p : Int} {c : Nat}
    (h : iv.pickOnGrid tie p = some c) : iv.contains c p = true := by
  unfold pickOnGrid at h
  simp only at h
  split at h
  · rename_i hlower hupper
    split at h
    · cases h
      exact hlower
    · cases h
      exact hupper
    · split at h
      · cases h
        exact hupper
      · cases h
        split <;> assumption
  · cases h
    assumption
  · cases h
    assumption
  · cases h

theorem contains_of_search {tie : Tie} {iv : Interval} {top : Int} {fuel n : Nat} {d : Decimal}
    (h : iv.search tie top fuel n = some d) : iv.contains d.digits d.exponent = true := by
  induction fuel generalizing n with
  | zero => cases h
  | succ fuel ih =>
    unfold search at h
    simp only at h
    split at h
    · rename_i c hc
      cases h
      exact contains_of_pickOnGrid hc
    · exact ih h

theorem search_isSome {tie : Tie} {iv : Interval} {top : Int} {fuel n : Nat} {k : Nat}
    (hk : k < fuel) (hpick : (iv.pickOnGrid tie (top + 1 - (n + k : Nat))).isSome) :
    (iv.search tie top fuel n).isSome := by
  induction fuel generalizing n k with
  | zero => omega
  | succ fuel ih =>
    unfold search
    simp only
    split
    · rfl
    · rename_i hnone
      cases k with
      | zero => simp [hnone] at hpick
      | succ k =>
        apply ih (k := k) (by omega)
        rwa [show n + 1 + k = n + (k + 1) by omega]

theorem pickOnGrid_isSome_of_contains {tie : Tie} {iv : Interval} {p : Int}
    (h : iv.contains (floorOnGrid iv.value iv.unitExponent p) p = true ∨
      iv.contains (floorOnGrid iv.value iv.unitExponent p + 1) p = true) :
    (iv.pickOnGrid tie p).isSome := by
  unfold pickOnGrid
  simp only
  rcases h with h | h <;> rw [h]
  · cases iv.contains (floorOnGrid iv.value iv.unitExponent p + 1) p
    · rfl
    · simp only
      split <;> (try split) <;> rfl
  · cases iv.contains (floorOnGrid iv.value iv.unitExponent p) p
    · rfl
    · simp only
      split <;> (try split) <;> rfl

theorem pickOnGrid_isSome (tie : Tie) (iv : Interval) (p : Int) (hlow : iv.low < iv.value)
    (hgaps : iv.value - iv.low ≤ iv.high - iv.value) (hhigh : iv.value ≤ iv.high)
    (hfine : (10 : ℚ) ^ p < 2 * ((iv.value - iv.low : Nat) : ℚ) * 2 ^ iv.unitExponent) :
    (iv.pickOnGrid tie p).isSome := by
  obtain ⟨hfloor, hceil⟩ := floorOnGrid_spec iv.value iv.unitExponent p
  apply pickOnGrid_isSome_of_contains
  generalize floorOnGrid iv.value iv.unitExponent p = lower at hfloor hceil ⊢
  set u : ℚ := 2 ^ iv.unitExponent with hu
  have hupos : 0 < u := by positivity
  have hgap : ((iv.value - iv.low : Nat) : ℚ) = iv.value - iv.low := by
    rw [Nat.cast_sub hlow.le]
  have hgaps' : ((iv.value : ℚ) - iv.low) ≤ iv.high - iv.value := by
    have : ((iv.value - iv.low : Nat) : ℚ) ≤ ((iv.high - iv.value : Nat) : ℚ) := by exact_mod_cast hgaps
    rwa [hgap, Nat.cast_sub hhigh] at this
  have hlowq : (iv.low : ℚ) < iv.value := by exact_mod_cast hlow
  rw [hgap] at hfine
  have hlowv : (iv.low : ℚ) * u < iv.value * u := by gcongr
  -- one of the two neighbours is within half a step of the value
  rw [contains_iff, contains_iff]
  by_cases hnear : (iv.value : ℚ) * u - lower * 10 ^ p < (iv.value - iv.low) * u
  · left
    refine ⟨.inl (by nlinarith), .inl ?_⟩
    calc (lower : ℚ) * 10 ^ p ≤ iv.value * u := hfloor
      _ < iv.high * u := by
        have : (iv.value : ℚ) < iv.high := by linarith
        gcongr
  · right
    push Not at hnear
    refine ⟨.inl ?_, .inl ?_⟩
    · calc (iv.low : ℚ) * u < iv.value * u := hlowv
        _ < ((lower + 1 : Nat) : ℚ) * 10 ^ p := hceil
    · push_cast at hceil ⊢
      nlinarith

end Interval

/-! ## The decimal exponent -/

theorem ten_pow_le_two_pow {g b : Nat} (h : g * 2136 ≤ 643 * b) : 10 ^ g ≤ 2 ^ b := by
  have hcert : 10 ^ 643 ≤ 2 ^ 2136 := by decide +kernel
  have hpow : (10 ^ g) ^ 2136 ≤ (2 ^ b) ^ 2136 :=
    calc (10 ^ g) ^ 2136 = 10 ^ (g * 2136) := (pow_mul _ _ _).symm
      _ ≤ 10 ^ (643 * b) := Nat.pow_le_pow_right (by norm_num) h
      _ = (10 ^ 643) ^ b := pow_mul _ _ _
      _ ≤ (2 ^ 2136) ^ b := Nat.pow_le_pow_left hcert b
      _ = (2 ^ b) ^ 2136 := by rw [← pow_mul, ← pow_mul, Nat.mul_comm]
  -- with the exponent a variable, the two instances of `^` unify without evaluating
  generalize hn : (2136 : Nat) = n at hpow
  exact (Nat.pow_le_pow_iff_left (by omega)).mp hpow

theorem two_pow_le_ten_pow {a n : Nat} (h : 146 * a ≤ 485 * n) : 2 ^ a ≤ 10 ^ n := by
  have hcert : 2 ^ 485 ≤ 10 ^ 146 := by decide +kernel
  have hpow : (2 ^ a) ^ 485 ≤ (10 ^ n) ^ 485 :=
    calc (2 ^ a) ^ 485 = (2 ^ 485) ^ a := by rw [← pow_mul, ← pow_mul, Nat.mul_comm]
      _ ≤ (10 ^ 146) ^ a := Nat.pow_le_pow_left hcert a
      _ = 10 ^ (146 * a) := (pow_mul _ _ _).symm
      _ ≤ 10 ^ (485 * n) := Nat.pow_le_pow_right (by norm_num) h
      _ = (10 ^ n) ^ 485 := by rw [← pow_mul, Nat.mul_comm]
  generalize hn : (485 : Nat) = n at hpow
  exact (Nat.pow_le_pow_iff_left (by omega)).mp hpow

theorem ten_zpow_guess_le (b : Int) (hlo : -1100 ≤ b) (hhi : b ≤ 1100) :
    (10 : ℚ) ^ (b * 315653 / 1048576 - 1) ≤ 2 ^ b := by
  rcases le_or_gt 0 b with hb | hb
  · obtain ⟨k, rfl⟩ := Int.eq_ofNat_of_zero_le hb
    rcases lt_or_ge ((k : Int) * 315653 / 1048576 - 1) 0 with hg | hg
    · calc (10 : ℚ) ^ ((k : Int) * 315653 / 1048576 - 1) ≤ 1 :=
            zpow_le_one_of_nonpos₀ (by norm_num) hg.le
        _ ≤ 2 ^ (k : Int) := by rw [zpow_natCast]; exact one_le_pow₀ (by norm_num)
    · obtain ⟨g, hg'⟩ := Int.eq_ofNat_of_zero_le hg
      rw [hg', zpow_natCast, zpow_natCast]
      exact_mod_cast ten_pow_le_two_pow (g := g) (b := k) (by omega)
  · obtain ⟨a, ha⟩ : ∃ a : Nat, b = -(a : Int) := ⟨b.natAbs, by omega⟩
    obtain ⟨n, hn⟩ : ∃ n : Nat, b * 315653 / 1048576 - 1 = -(n : Int) := ⟨(1 - b * 315653 / 1048576).toNat, by omega⟩
    rw [hn, ha, zpow_neg, zpow_neg, zpow_natCast, zpow_natCast]
    apply inv_anti₀ (by positivity)
    exact_mod_cast two_pow_le_ten_pow (a := a) (n := n) (by omega)

theorem ten_zpow_decimalExponent_le {x : Nat} {s : Int} (hx : x ≠ 0)
    (hlo : -1100 ≤ (x.log2 : Int) + s) (hhi : (x.log2 : Int) + s ≤ 1100) :
    (10 : ℚ) ^ decimalExponent x s ≤ x * 2 ^ s := by
  unfold decimalExponent
  simp only
  split_ifs with hup hdown
  · simpa using (le_dyadic_iff 1 _ x s).mpr (bne_iff_ne.mp hup)
  · -- the guess less one is below `2^bits`, and `2^bits ≤ x · 2^s`
    have hbits : (2 : ℚ) ^ ((x.log2 : Int) + s) ≤ x * 2 ^ s := by
      rw [zpow_add₀ (by norm_num), zpow_natCast]
      gcongr
      exact_mod_cast Nat.log2_self_le hx
    exact (ten_zpow_guess_le _ hlo hhi).trans hbits
  · simpa using (le_dyadic_iff 1 _ x s).mpr (by simpa using hdown)

/-! ## The shortest decimal -/

/-- The shortest decimal of a positive finite float lies in its rounding interval. -/
theorem shortestOf_admits (tie : Tie) {m : Nat} {e : Int} (hm : 0 < m) (hm53 : m < 2 ^ 53)
    (he : -1074 ≤ e) (he' : e ≤ 971) :
    (Interval.around m e).Admits (shortestOf tie m e).val := by
  set iv := Interval.around m e with hiv
  have hbelow : iv.value - iv.low = if m = 2 ^ 52 ∧ e > -1074 then 1 else 2 := by
    simp only [iv, Interval.around, Nat.pow_eq]
    split <;> omega
  have hlow : iv.low < iv.value := by
    simp only [iv, Interval.around]
    split <;> omega
  have hgaps : iv.value - iv.low ≤ iv.high - iv.value := by
    rw [hbelow]
    simp only [iv, Interval.around]
    split <;> omega
  have hhigh : iv.value ≤ iv.high := by simp [iv, Interval.around]
  -- the value `4m · 2^(e-2)` has between 0 and 55 bits before the exponent
  have hlog : (4 * m).log2 < 55 := (Nat.log2_lt (by omega)).mpr (by omega)
  have htop := ten_zpow_decimalExponent_le (x := iv.value) (s := iv.unitExponent)
    (by simp only [iv, Interval.around]; omega)
    (by simp only [iv, Interval.around]; omega) (by simp only [iv, Interval.around]; omega)
  set top := decimalExponent iv.value iv.unitExponent
  -- at seventeen digits the grid step is below the lower half of the interval
  have hfine : (10 : ℚ) ^ (top + 1 - ((1 + 16 : Nat) : Int)) <
      2 * ((iv.value - iv.low : Nat) : ℚ) * 2 ^ iv.unitExponent := by
    have hp : top + 1 - ((1 + 16 : Nat) : Int) = top - 16 := by omega
    have hsmall : 2 * (m : ℚ) < ((iv.value - iv.low : Nat) : ℚ) * 10 ^ 16 := by
      rw [hbelow]
      split
      · rename_i h
        rw [h.1]
        norm_num
      · have : (m : ℚ) < 2 ^ 53 := by exact_mod_cast hm53
        push_cast
        linarith
    have hvalue : (iv.value : ℚ) * 2 ^ iv.unitExponent = 4 * m * 2 ^ iv.unitExponent := by
      simp [iv, Interval.around]
    rw [hp, zpow_sub₀ (by norm_num), div_lt_iff₀ (by positivity)]
    calc (10 : ℚ) ^ top ≤ iv.value * 2 ^ iv.unitExponent := htop
      _ = 2 * (2 * m) * 2 ^ iv.unitExponent := by rw [hvalue]; ring
      _ < 2 * (((iv.value - iv.low : Nat) : ℚ) * 10 ^ 16) * 2 ^ iv.unitExponent := by gcongr
      _ = _ := by norm_num; ring
  have hsome : (iv.search tie top 17 1).isSome :=
    Interval.search_isSome (k := 16) (by norm_num)
      (Interval.pickOnGrid_isSome tie iv _ hlow hgaps hhigh hfine)
  obtain ⟨d, hd⟩ := Option.isSome_iff_exists.mp hsome
  have hshort : shortestOf tie m e = d.normalize := by
    unfold shortestOf
    simp only
    rw [hd]
  rw [hshort, normalize_val]
  exact (Interval.contains_iff iv _ _).mp (Interval.contains_of_search hd)

end Phenotyping.Decimal
