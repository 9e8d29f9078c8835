import Phenotyping.Proofs.ShortestDecimal
import Phenotyping.Decimal.Rounding
/-! # Reading a decimal back to the float it came from

A quotient of whole numbers goes to the binary64 nearest to it in three steps: a binary
exponent that brings the quotient into `[2^52, 2^53)`, capped at the subnormal scale; rounding
the scaled quotient half to even; and a carry when rounding reaches `2^53`. Read as rationals,
the exponent estimate is the unique one with the scaled quotient in that range, and rounding
gives the whole number within half of the scaled quotient, the even one at an exact half.

So every rational in the rounding interval of a positive finite float `m · 2^e` goes back to
that float. The cases follow the float: a normal significand above the least one, the least
normal significand, where the gap below is half the gap above and a value just below it
carries into the exponent, and the subnormal significands, where the scale is capped.
-/
namespace Phenotyping.Decimal
set_option autoImplicit false

theorem roundHalfEven_eq {num den q : Nat} (hden : 0 < den)
    (hlo : 2 * q * den < 2 * num + den ∨ 2 * q * den = 2 * num + den ∧ q % 2 = 0)
    (hhi : 2 * num < (2 * q + 1) * den ∨ 2 * num = (2 * q + 1) * den ∧ q % 2 = 0) :
    roundHalfEven num den = q := by
  unfold roundHalfEven
  simp only
  have hdiv := Nat.div_add_mod num den
  have hmod := Nat.mod_lt num hden
  set q' := num / den
  set r := num % den
  -- `q` is `q'` or `q' + 1`
  have hle : q ≤ q' + 1 := by
    have : 2 * q * den < (2 * q' + 3) * den := by
      rcases hlo with h | ⟨h, -⟩ <;> nlinarith
    have := Nat.lt_of_mul_lt_mul_right this
    omega
  have hge : q' ≤ q := by
    have : 2 * q' * den < (2 * q + 2) * den := by
      rcases hhi with h | ⟨h, -⟩ <;> nlinarith
    have := Nat.lt_of_mul_lt_mul_right this
    omega
  rcases Nat.eq_or_lt_of_le hge with hq | hq
  · -- the remainder is below half the divisor, or exactly half with `q'` even
    subst hq
    rcases hhi with h | ⟨h, heven⟩
    · rw [compare_lt_iff_lt.mpr (by nlinarith)]
    · rw [compare_eq_iff_eq.mpr (by nlinarith), if_pos heven]
  · -- the remainder is above half the divisor, or exactly half with `q'` odd
    have hq : q = q' + 1 := by omega
    subst hq
    rcases hlo with h | ⟨h, heven⟩
    · rw [compare_gt_iff_gt.mpr (by nlinarith)]
    · rw [compare_eq_iff_eq.mpr (by nlinarith), if_neg (by omega)]

theorem roundHalfEven_eq_of_near {A B q : Nat} (hB : 0 < B)
    (hlo : (q : ℚ) - 1 / 2 < A / B ∨ (q : ℚ) - 1 / 2 = A / B ∧ q % 2 = 0)
    (hhi : (A : ℚ) / B < q + 1 / 2 ∨ (A : ℚ) / B = q + 1 / 2 ∧ q % 2 = 0) :
    roundHalfEven A B = q := by
  have hBq : (0 : ℚ) < B := by exact_mod_cast hB
  apply roundHalfEven_eq hB
  · rcases hlo with h | ⟨h, heven⟩
    · left
      rw [lt_div_iff₀ hBq] at h
      exact_mod_cast (by push_cast; linarith : ((2 * q * B : Nat) : ℚ) < ((2 * A + B : Nat) : ℚ))
    · right
      rw [eq_div_iff hBq.ne'] at h
      exact ⟨by exact_mod_cast (by push_cast; linarith : ((2 * q * B : Nat) : ℚ) = ((2 * A + B : Nat) : ℚ)), heven⟩
  · rcases hhi with h | ⟨h, heven⟩
    · left
      rw [div_lt_iff₀ hBq] at h
      exact_mod_cast (by push_cast; linarith : ((2 * A : Nat) : ℚ) < (((2 * q + 1) * B : Nat) : ℚ))
    · right
      rw [div_eq_iff hBq.ne'] at h
      exact ⟨by exact_mod_cast (by push_cast; linarith : ((2 * A : Nat) : ℚ) = (((2 * q + 1) * B : Nat) : ℚ)), heven⟩

theorem ratio_mul_zpow (num den : Nat) (k : Int) :
    (num : ℚ) / den * 2 ^ k = ((num * Nat.pow 2 k.toNat : Nat) : ℚ) / ((den * Nat.pow 2 (-k).toNat : Nat) : ℚ) := by
  rw [zpow_eq_div (by norm_num) k]
  push_cast [Nat.pow_eq]
  field_simp


theorem scaleShift_spec {num den : Nat} (hnum : num ≠ 0) (hden : den ≠ 0) :
    2 ^ 52 ≤ (num : ℚ) / den * 2 ^ scaleShift num den ∧
      (num : ℚ) / den * 2 ^ scaleShift num den < 2 ^ 53 := by
  have hn1 : (2 : ℚ) ^ (num.log2 : Int) ≤ num := by
    rw [zpow_natCast]
    exact_mod_cast Nat.log2_self_le hnum
  have hn2 : (num : ℚ) < 2 ^ ((num.log2 : Int) + 1) := by
    rw [← Nat.cast_succ, zpow_natCast]
    exact_mod_cast Nat.lt_log2_self
  have hd1 : (2 : ℚ) ^ (den.log2 : Int) ≤ den := by
    rw [zpow_natCast]
    exact_mod_cast Nat.log2_self_le hden
  have hd2 : (den : ℚ) < 2 ^ ((den.log2 : Int) + 1) := by
    rw [← Nat.cast_succ, zpow_natCast]
    exact_mod_cast Nat.lt_log2_self
  have hdpos : (0 : ℚ) < den := by exact_mod_cast Nat.pos_of_ne_zero hden
  set k : Int := 52 - ((num.log2 : Int) - den.log2) with hk
  -- the first estimate lies in `(2^51, 2^53)`
  have hlow : (2 : ℚ) ^ (51 : Int) < num / den * 2 ^ k := by
    rw [div_mul_eq_mul_div, lt_div_iff₀ hdpos]
    calc (2 : ℚ) ^ (51 : Int) * den < 2 ^ (51 : Int) * 2 ^ ((den.log2 : Int) + 1) := by gcongr
      _ = 2 ^ (num.log2 : Int) * 2 ^ k := by
        rw [← zpow_add₀ (by norm_num), ← zpow_add₀ (by norm_num)]
        congr 1
        omega
      _ ≤ num * 2 ^ k := by gcongr
  have hhigh : (num : ℚ) / den * 2 ^ k < 2 ^ (53 : Int) := by
    rw [div_mul_eq_mul_div, div_lt_iff₀ hdpos]
    calc (num : ℚ) * 2 ^ k < 2 ^ ((num.log2 : Int) + 1) * 2 ^ k := by gcongr
      _ = 2 ^ (53 : Int) * 2 ^ (den.log2 : Int) := by
        rw [← zpow_add₀ (by norm_num), ← zpow_add₀ (by norm_num)]
        congr 1
        omega
      _ ≤ 2 ^ (53 : Int) * den := by gcongr
  -- the whole part of the first estimate decides whether one more bit is needed
  have hscaled : (num * Nat.pow 2 k.toNat) / (den * Nat.pow 2 (-k).toNat) < Nat.pow 2 52 ↔
      (num : ℚ) / den * 2 ^ k < 2 ^ 52 := by
    have hpos : 0 < den * Nat.pow 2 (-k).toNat := by
      simp only [Nat.pow_eq]
      positivity
    rw [Nat.div_lt_iff_lt_mul hpos, ratio_mul_zpow, div_lt_iff₀ (by exact_mod_cast hpos)]
    norm_cast
  unfold scaleShift
  simp only [← hk]
  split_ifs with h
  · rw [hscaled] at h
    rw [zpow_add_one₀ (by norm_num), ← mul_assoc]
    norm_num at hlow hhigh ⊢
    constructor <;> linarith
  · rw [hscaled, not_lt] at h
    norm_num at hhigh ⊢
    exact ⟨h, hhigh⟩

theorem scaleShift_eq_of_bounds {num den : Nat} (hnum : num ≠ 0) (hden : den ≠ 0) {j : Int}
    (h1 : 2 ^ 52 ≤ (num : ℚ) / den * 2 ^ j) (h2 : (num : ℚ) / den * 2 ^ j < 2 ^ 53) :
    scaleShift num den = j := by
  obtain ⟨hk1, hk2⟩ := scaleShift_spec hnum hden
  have hr : (0 : ℚ) < num / den := by positivity
  rcases lt_trichotomy (scaleShift num den) j with h | h | h
  · -- one bit short: the estimate is at most half of a value below `2^53`
    have : (num : ℚ) / den * 2 ^ scaleShift num den * 2 ≤ num / den * 2 ^ j := by
      rw [mul_assoc, ← zpow_add_one₀ (by norm_num)]
      gcongr
      · norm_num
      · omega
    norm_num at hk1 h2
    linarith
  · exact h
  · have : (num : ℚ) / den * 2 ^ j * 2 ≤ num / den * 2 ^ scaleShift num den := by
      rw [mul_assoc, ← zpow_add_one₀ (by norm_num)]
      gcongr
      · norm_num
      · omega
    norm_num at h1 hk2
    linarith

theorem lt_scaleShift_of_lt {num den : Nat} (hnum : num ≠ 0) (hden : den ≠ 0) {j : Int}
    (h : (num : ℚ) / den * 2 ^ j < 2 ^ 52) : j < scaleShift num den := by
  obtain ⟨hk1, -⟩ := scaleShift_spec hnum hden
  by_contra hle
  have : (num : ℚ) / den * 2 ^ scaleShift num den ≤ num / den * 2 ^ j := by
    gcongr
    · norm_num
    · omega
  linarith

theorem nearestOfRatio_of_round {negative : Bool} {num den : Nat} {k : Int} {q : Nat}
    (hnum : num ≠ 0) (hk : min (scaleShift num den) 1074 = k)
    (hq : roundHalfEven (num * Nat.pow 2 k.toNat) (den * Nat.pow 2 (-k).toNat) = q)
    (hq53 : q ≠ Nat.pow 2 53) (he : -k ≤ 971) :
    nearestOfRatio negative num den = Binary64.ofParts negative q (-k) := by
  unfold nearestOfRatio
  simp only [hnum, if_false, hk, hq, hq53, gt_iff_lt]
  rw [if_neg (by omega)]

theorem nearestOfRatio_of_round_carry {negative : Bool} {num den : Nat} {k : Int}
    (hnum : num ≠ 0) (hk : min (scaleShift num den) 1074 = k)
    (hq : roundHalfEven (num * Nat.pow 2 k.toNat) (den * Nat.pow 2 (-k).toNat) = Nat.pow 2 53)
    (he : -k + 1 ≤ 971) :
    nearestOfRatio negative num den = Binary64.ofParts negative (Nat.pow 2 52) (-k + 1) := by
  unfold nearestOfRatio
  simp only [hnum, if_false, hk, hq, gt_iff_lt, if_true]
  rw [if_neg (by omega)]

theorem around_admits_bounds {m : Nat} {e : Int} {t : ℚ} (hm : 0 < m)
    (h : (Interval.around m e).Admits (t * 2 ^ e)) :
    let below : ℚ := if m = 2 ^ 52 ∧ e > -1074 then 1 else 2
    ((m : ℚ) - below / 4 < t ∨ (m : ℚ) - below / 4 = t ∧ m % 2 = 0) ∧
      (t < m + 1 / 2 ∨ t = m + 1 / 2 ∧ m % 2 = 0) := by
  intro below
  have hunit : (2 : ℚ) ^ (e - 2) = 2 ^ e / 4 := by
    rw [zpow_sub₀ (by norm_num)]
    norm_num
  have hlow : (((Interval.around m e).low : Nat) : ℚ) = 4 * m - below := by
    simp only [Interval.around, below, Nat.pow_eq]
    split
    · rw [Nat.cast_sub (by omega)]
      push_cast
      ring
    · rw [Nat.cast_sub (by omega)]
      push_cast
      ring
  have hpos : (0 : ℚ) < 2 ^ e := by positivity
  obtain ⟨hl, hh⟩ := h
  simp only [Interval.around, hunit, Nat.pow_eq, decide_eq_true_eq] at hl hh hlow
  rw [hlow] at hl
  push_cast at hh
  constructor
  · rcases hl with hl | ⟨heven, hl⟩
    · left
      have : ((4 * m - below) / 4) * 2 ^ e < t * 2 ^ e := by linarith
      have := lt_of_mul_lt_mul_right this hpos.le
      linarith
    · right
      refine ⟨?_, heven⟩
      have : ((4 * m - below) / 4) * 2 ^ e = t * 2 ^ e := by linarith
      have := mul_right_cancel₀ hpos.ne' this
      linarith
  · rcases hh with hh | ⟨heven, hh⟩
    · left
      have : t * 2 ^ e < (m + 1 / 2) * 2 ^ e := by linarith
      exact lt_of_mul_lt_mul_right this hpos.le
    · right
      refine ⟨?_, heven⟩
      have : t * 2 ^ e = (m + 1 / 2) * 2 ^ e := by linarith
      exact mul_right_cancel₀ hpos.ne' this

theorem roundHalfEven_scaled {num den q : Nat} {k : Int} (hden : den ≠ 0)
    (hlo : (q : ℚ) - 1 / 2 < num / den * 2 ^ k ∨ (q : ℚ) - 1 / 2 = num / den * 2 ^ k ∧ q % 2 = 0)
    (hhi : (num : ℚ) / den * 2 ^ k < q + 1 / 2 ∨ (num : ℚ) / den * 2 ^ k = q + 1 / 2 ∧ q % 2 = 0) :
    roundHalfEven (num * Nat.pow 2 k.toNat) (den * Nat.pow 2 (-k).toNat) = q := by
  apply roundHalfEven_eq_of_near (by simp only [Nat.pow_eq]; positivity)
  · rwa [← ratio_mul_zpow]
  · rwa [← ratio_mul_zpow]

theorem num_ne_zero_of_scaled_pos {num den : Nat} {k : Int} (h : 0 < (num : ℚ) / den * 2 ^ k) :
    num ≠ 0 := by
  rintro rfl
  simp at h

theorem scaled_sub (num den : Nat) (e k : Int) :
    (num : ℚ) / den * 2 ^ (k - e) = num / den * 2 ^ (-e) * 2 ^ k := by
  rw [mul_assoc, ← zpow_add₀ (by norm_num)]
  congr 2
  ring

/-- A ratio whose value on the scale `2^-e` is within a quarter below and a half above `2^52`
goes back to the least normal significand: the gap below it is half the gap above. -/
theorem nearestOfRatio_least_normal {negative : Bool} {e : Int} {num den : Nat} (hden : den ≠ 0)
    (he : -1074 < e) (he' : e ≤ 971) (hlo : (2 : ℚ) ^ 52 - 1 / 4 ≤ num / den * 2 ^ (-e))
    (hhi : (num : ℚ) / den * 2 ^ (-e) ≤ 2 ^ 52 + 1 / 2) :
    nearestOfRatio negative num den = Binary64.ofParts negative (2 ^ 52) e := by
  set t : ℚ := num / den * 2 ^ (-e)
  -- `t` stands for the ratio on the scale `2^-e`; goals about the ratio are changed to `t`
  have hnum : num ≠ 0 := num_ne_zero_of_scaled_pos (k := -e) (by change 0 < t; linarith)
  have hat : ∀ k : Int, (num : ℚ) / den * 2 ^ (k - e) = t * 2 ^ k := scaled_sub num den e
  by_cases hbig : (2 : ℚ) ^ 52 ≤ t
  · -- on the scale `2^-e` the value rounds to `2^52`
    have hK : scaleShift num den = -e := scaleShift_eq_of_bounds hnum hden hbig
      (by change t < _; linarith)
    have hq : roundHalfEven (num * Nat.pow 2 (-e).toNat) (den * Nat.pow 2 (- -e).toNat) = 2 ^ 52 := by
      refine roundHalfEven_scaled hden (.inl ?_) ?_
      · change _ < t
        push_cast
        linarith
      · change t < _ ∨ t = _ ∧ _
        push_cast
        rcases lt_or_eq_of_le hhi with h | h
        · exact .inl h
        · exact .inr ⟨h, by norm_num⟩
    rw [nearestOfRatio_of_round hnum (by omega) hq (by norm_num) (by omega), neg_neg]
  · -- just below `2^52`: one more bit, and rounding carries to `2^53`
    push Not at hbig
    have hK : scaleShift num den = 1 - e := scaleShift_eq_of_bounds hnum hden
      (by rw [hat, zpow_one]; linarith)
      (by rw [hat, zpow_one]; linarith)
    have hq : roundHalfEven (num * Nat.pow 2 (1 - e).toNat) (den * Nat.pow 2 (-(1 - e)).toNat) =
        Nat.pow 2 53 := by
      refine roundHalfEven_scaled hden ?_ (.inl ?_)
      · rw [hat, zpow_one]
        simp only [Nat.pow_eq]
        push_cast
        rcases lt_or_eq_of_le hlo with h | h
        · exact .inl (by linarith)
        · exact .inr ⟨by linarith, by norm_num⟩
      · rw [hat, zpow_one]
        simp only [Nat.pow_eq]
        push_cast
        linarith
    rw [nearestOfRatio_of_round_carry hnum (k := 1 - e) (by omega) hq (by omega)]
    congr 1
    omega

/-- A ratio whose value on the scale `2^-e` rounds half to even to `m` goes back to `m · 2^e`,
for every significand but the least normal one with an exponent above the least. -/
theorem nearestOfRatio_of_scaled {negative : Bool} {m : Nat} {e : Int} {num den : Nat}
    (hm : 0 < m)
    (hshape : (m < 2 ^ 52 ∧ e = -1074) ∨ (2 ^ 52 ≤ m ∧ m < 2 ^ 53 ∧ -1074 ≤ e ∧ e ≤ 971))
    (hc : ¬(m = 2 ^ 52 ∧ e > -1074)) (hden : den ≠ 0)
    (hlo : (m : ℚ) - 1 / 2 < num / den * 2 ^ (-e) ∨ (m : ℚ) - 1 / 2 = num / den * 2 ^ (-e) ∧ m % 2 = 0)
    (hhi : (num : ℚ) / den * 2 ^ (-e) < m + 1 / 2 ∨ (num : ℚ) / den * 2 ^ (-e) = m + 1 / 2 ∧ m % 2 = 0) :
    nearestOfRatio negative num den = Binary64.ofParts negative m e := by
  set t : ℚ := num / den * 2 ^ (-e)
  have hmq : (1 : ℚ) ≤ m := by exact_mod_cast hm
  have hlo' : (m : ℚ) - 1 / 2 ≤ t := by rcases hlo with h | ⟨h, -⟩ <;> linarith
  have hhi' : t ≤ m + 1 / 2 := by rcases hhi with h | ⟨h, -⟩ <;> linarith
  have hnum : num ≠ 0 := num_ne_zero_of_scaled_pos (k := -e) (by change 0 < t; linarith)
  have hat : ∀ k : Int, (num : ℚ) / den * 2 ^ (k - e) = t * 2 ^ k := scaled_sub num den e
  have hm53 : m < 2 ^ 53 := by rcases hshape with ⟨h, -⟩ | ⟨-, h, -⟩ <;> omega
  have he' : -1074 ≤ e ∧ e ≤ 971 := by rcases hshape with ⟨-, h⟩ | ⟨-, -, h⟩ <;> omega
  -- the scale is `2^-e`, found by the estimate or capped at the subnormal scale
  have hk : min (scaleShift num den) 1074 = -e := by
    by_cases hbig : (2 : ℚ) ^ 52 ≤ t
    · have hmq53 : (m : ℚ) + 1 ≤ 2 ^ 53 := by exact_mod_cast hm53
      have hK : scaleShift num den = -e := scaleShift_eq_of_bounds hnum hden hbig
        (by change t < _; linarith)
      omega
    · -- below `2^52` only the subnormal scale is left
      push Not at hbig
      have he0 : e = -1074 := by
        rcases hshape with ⟨-, h⟩ | ⟨hnorm, -, h, -⟩
        · exact h
        · have hm52 : (m : ℚ) < 2 ^ 52 + 1 := by linarith
          have : m < 2 ^ 52 + 1 := by exact_mod_cast hm52
          omega
      have hK : 1074 < scaleShift num den := lt_scaleShift_of_lt hnum hden
        (by rw [show (1074 : Int) = 0 - e by omega, hat, zpow_zero, mul_one]; exact hbig)
      omega
  rw [nearestOfRatio_of_round hnum hk (roundHalfEven_scaled hden hlo hhi)
    (by simp only [Nat.pow_eq]; omega) (by omega), neg_neg]

/-- Every rational in the rounding interval of a positive finite float goes back to it. -/
theorem nearestOfRatio_of_admits {negative : Bool} {m : Nat} {e : Int} {num den : Nat}
    (hm : 0 < m)
    (hshape : (m < 2 ^ 52 ∧ e = -1074) ∨ (2 ^ 52 ≤ m ∧ m < 2 ^ 53 ∧ -1074 ≤ e ∧ e ≤ 971))
    (hden : den ≠ 0) (hadm : (Interval.around m e).Admits ((num : ℚ) / den)) :
    nearestOfRatio negative num den = Binary64.ofParts negative m e := by
  have hr : (num : ℚ) / den = num / den * 2 ^ (-e) * 2 ^ e := by
    rw [mul_assoc, ← zpow_add₀ (by norm_num), neg_add_cancel, zpow_zero, mul_one]
  rw [hr] at hadm
  obtain ⟨hlo, hhi⟩ := around_admits_bounds hm hadm
  by_cases hc : m = 2 ^ 52 ∧ e > -1074
  · -- the least normal significand: the gap below is a quarter on this scale
    rw [if_pos hc] at hlo
    obtain ⟨rfl, he⟩ := hc
    obtain ⟨-, -, -, he'⟩ := hshape.resolve_left (by omega)
    push_cast at hlo hhi
    exact nearestOfRatio_least_normal hden he he' (by rcases hlo with h | ⟨h, -⟩ <;> linarith)
      (by rcases hhi with h | ⟨h, -⟩ <;> linarith)
  · have hhalf : (2 : ℚ) / 4 = 1 / 2 := by norm_num
    rw [if_neg hc, hhalf] at hlo
    exact nearestOfRatio_of_scaled hm hshape hc hden hlo hhi

theorem val_mem_point {d : Decimal} (h : d.digits ≠ 0) :
    (10 : ℚ) ^ (d.point - 1) ≤ d.val ∧ d.val < 10 ^ d.point := by
  have hlen := Nat.length_toDigits_pos (b := 10) (n := d.digits)
  set L := (Nat.toDigits 10 d.digits).length with hL
  have hlt : d.digits < 10 ^ L := (Nat.length_toDigits_le_iff (by norm_num) hlen).mp le_rfl
  have hge : 10 ^ (L - 1) ≤ d.digits := by
    rcases Nat.eq_or_lt_of_le hlen with h1 | h1
    · rw [← h1, Nat.sub_self, Nat.pow_zero]
      omega
    · by_contra hc
      have := (Nat.length_toDigits_le_iff (b := 10) (n := d.digits) (k := L - 1) (by norm_num)
        (by omega)).mpr (by omega)
      omega
  have hpoint : d.point = (L : Int) + d.exponent := rfl
  have hpos : (0 : ℚ) < 10 ^ d.exponent := by positivity
  rw [hpoint, val]
  constructor
  · rw [show (L : Int) + d.exponent - 1 = ((L - 1 : Nat) : Int) + d.exponent by omega,
      zpow_add₀ (by norm_num), zpow_natCast]
    gcongr
    exact_mod_cast hge
  · rw [zpow_add₀ (by norm_num), zpow_natCast]
    gcongr
    exact_mod_cast hlt

theorem around_admits_range {m : Nat} {e : Int} {v : ℚ} (hm : 0 < m)
    (hshape : (m < 2 ^ 52 ∧ e = -1074) ∨ (2 ^ 52 ≤ m ∧ m < 2 ^ 53 ∧ -1074 ≤ e ∧ e ≤ 971))
    (h : (Interval.around m e).Admits v) : (2 : ℚ) ^ (-1075 : Int) ≤ v ∧ v < 2 ^ (1024 : Int) := by
  have hm53 : m < 2 ^ 53 := by rcases hshape with ⟨h, -⟩ | ⟨-, h, -⟩ <;> omega
  have he : -1074 ≤ e ∧ e ≤ 971 := by rcases hshape with ⟨-, h⟩ | ⟨-, -, h⟩ <;> omega
  obtain ⟨hl, hh⟩ := h
  have hlow : ((2 : Nat) : ℚ) * 2 ^ (-1076 : Int) ≤ ((Interval.around m e).low : ℚ) *
      2 ^ (Interval.around m e).unitExponent := by
    have h2 : 2 ≤ (Interval.around m e).low := by
      simp only [Interval.around]
      split <;> omega
    gcongr
    · norm_num
    · simp only [Interval.around]
      omega
  have hhigh : ((Interval.around m e).high : ℚ) * 2 ^ (Interval.around m e).unitExponent <
      ((2 ^ 55 : Nat) : ℚ) * 2 ^ (969 : Int) := by
    have h55 : (Interval.around m e).high < 2 ^ 55 := by
      simp only [Interval.around]
      omega
    calc ((Interval.around m e).high : ℚ) * 2 ^ (Interval.around m e).unitExponent
        ≤ ((Interval.around m e).high : ℚ) * 2 ^ (969 : Int) := by
          gcongr
          · norm_num
          · simp only [Interval.around]
            omega
      _ < ((2 ^ 55 : Nat) : ℚ) * 2 ^ (969 : Int) := by gcongr
  have hl' : ((Interval.around m e).low : ℚ) * 2 ^ (Interval.around m e).unitExponent ≤ v := by
    rcases hl with hl | ⟨-, hl⟩ <;> linarith
  have hh' : v ≤ ((Interval.around m e).high : ℚ) * 2 ^ (Interval.around m e).unitExponent := by
    rcases hh with hh | ⟨-, hh⟩ <;> linarith
  constructor
  · calc (2 : ℚ) ^ (-1075 : Int) = ((2 : Nat) : ℚ) * 2 ^ (-1076 : Int) := by
          rw [show (-1075 : Int) = 1 + -1076 by norm_num, zpow_add₀ (by norm_num)]
          norm_num
      _ ≤ v := hlow.trans hl'
  · calc v < ((2 ^ 55 : Nat) : ℚ) * 2 ^ (969 : Int) := lt_of_le_of_lt hh' hhigh
      _ = 2 ^ (1024 : Int) := by
          rw [show (1024 : Int) = 55 + 969 by norm_num, zpow_add₀ (by norm_num)]
          norm_num

/-- Every decimal in the rounding interval of a positive finite float is read as that float. -/
theorem toFloat_of_admits {negative : Bool} {m : Nat} {e : Int} {d : Decimal} (hm : 0 < m)
    (hshape : (m < 2 ^ 52 ∧ e = -1074) ∨ (2 ^ 52 ≤ m ∧ m < 2 ^ 53 ∧ -1074 ≤ e ∧ e ≤ 971))
    (hadm : (Interval.around m e).Admits d.val) :
    toFloat negative d = Binary64.ofParts negative m e := by
  obtain ⟨hlow, hhigh⟩ := around_admits_range hm hshape hadm
  have hdig : d.digits ≠ 0 := by
    intro h0
    have hzero : d.val = 0 := by simp [val, h0]
    have hpos : (0 : ℚ) < d.val := lt_of_lt_of_le (by positivity) hlow
    exact hpos.ne' hzero
  obtain ⟨hpt1, hpt2⟩ := val_mem_point hdig
  -- far outside the range of binary64 the reader takes a shortcut; these values are not there
  have hp1 : d.point ≤ 310 := by
    have hcert : (2 : ℚ) ^ (1024 : Int) < 10 ^ (309 : Int) := by
      have h : (2 : ℕ) ^ 1024 < 10 ^ 309 := by decide +kernel
      rw [zpow_ofNat, zpow_ofNat]
      exact_mod_cast h
    have : (10 : ℚ) ^ (d.point - 1) < 10 ^ (309 : Int) := hpt1.trans_lt (hhigh.trans hcert)
    have := (zpow_lt_zpow_iff_right₀ (by norm_num : (1 : ℚ) < 10)).mp this
    omega
  have hp2 : -330 ≤ d.point := by
    have hcert : (10 : ℚ) ^ (-324 : Int) < 2 ^ (-1075 : Int) := by
      have h : (2 : ℕ) ^ 1075 < 10 ^ 324 := by decide +kernel
      rw [zpow_neg, zpow_neg, zpow_ofNat, zpow_ofNat]
      apply inv_strictAnti₀ (by positivity)
      exact_mod_cast h
    have : (10 : ℚ) ^ (-324 : Int) < 10 ^ d.point := hcert.trans_le (hlow.trans_lt hpt2).le
    have := (zpow_lt_zpow_iff_right₀ (by norm_num : (1 : ℚ) < 10)).mp this
    omega
  unfold toFloat
  rw [if_neg hdig, if_neg (not_lt.mpr hp1), if_neg (not_lt.mpr hp2)]
  simp only [scaleTen]
  apply nearestOfRatio_of_admits hm hshape (by simp only [Nat.pow_eq]; positivity)
  convert hadm using 1
  rw [val, zpow_eq_div (by norm_num)]
  push_cast [Nat.pow_eq]
  ring

end Phenotyping.Decimal
