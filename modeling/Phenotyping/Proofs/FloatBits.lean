import Mathlib
import Phenotyping.Binary64
/-! # A float is its bit pattern

Every `Float` is determined by its 64 bits: reading a float's bits back with `Float.ofBits`
gives the float itself. The logical model keeps only the canonical NaN among the NaN
patterns, and on every pattern it keeps, unpacking and packing again is the identity.

Through the bits, the view of a float as sign, significand and exponent loses nothing:
assembling the parts of a finite float gives the float, a NaN is the canonical NaN and an
infinity is the infinity of its sign. A finite significand is either subnormal (below
`2^52`, exponent `-1074`) or normal (in `[2^52, 2^53)`, exponent in `[-1074, 971]`).
-/
namespace Phenotyping.Binary64
set_option autoImplicit false

open Float.Model UnpackedFloat

section Model

theorem toBitVec_ofBitVec (b : BitVec 1) : (Sign.ofBitVec b).toBitVec = b := by
  unfold Sign.ofBitVec
  split
  · rename_i h
    simp [Sign.toBitVec, h]
  · simp only [Sign.toBitVec]
    bv_omega

theorem packComponents_unpack (b : BitVec 64) :
    packComponents Format.binary64 (Sign.ofBitVec (@unpackSign Format.binary64 b))
      (@unpackExponent Format.binary64 b) (@unpackMantissa Format.binary64 b) =
      b := by
  unfold packComponents
  apply BitVec.eq_of_getLsbD_eq
  intro i hi
  simp only [toBitVec_ofBitVec, unpackSign, unpackExponent, unpackMantissa, BitVec.cast_eq]
  rw [BitVec.getLsbD_append, BitVec.getLsbD_append]
  simp only [BitVec.getLsbD_extractLsb]
  have hi64 : i < 64 := hi
  -- fraction bits, exponent bits, sign bit
  split_ifs with hlow hmid
  · simp [hlow]
  · simp only [hmid, decide_true, Bool.true_and]
    congr 1
    omega
  · rw [decide_eq_true (by omega), Bool.true_and]
    congr 1
    omega

theorem pack_unpack (b : BitVec 64) (hv : Format.binary64.Valid b) :
    UnpackedFloat.pack Format.binary64 (UnpackedFloat.unpack Format.binary64 b) = b := by
  conv_rhs => rw [← packComponents_unpack b]
  unfold UnpackedFloat.unpack
  simp only
  have hM : (@unpackMantissa Format.binary64 b).toNat < 2 ^ 52 := BitVec.isLt _
  have hE : (@unpackExponent Format.binary64 b).toNat < 2 ^ 11 := BitVec.isLt _
  split_ifs with hinf hman hzero hman'
  · simp [UnpackedFloat.pack, packedInfinity, hinf, hman]
  · rw [packComponents_unpack]
    exact (hv.eq_packedNaN hinf hman).symm
  · simp [UnpackedFloat.pack, packedZero, hzero, hman']
  · -- subnormal
    have hE0 : (@unpackExponent Format.binary64 b).toNat = 0 := by rw [hzero]; rfl
    have hpos : (@unpackMantissa Format.binary64 b).toNat ≠ 0 := by
      intro h0
      exact hman' (BitVec.eq_of_toNat_eq (by simpa using h0))
    have hlog : (@unpackMantissa Format.binary64 b).toNat.log2 < 52 :=
      (Nat.log2_lt hpos).mpr hM
    simp only [UnpackedFloat.pack, Format.exponentBias, Format.mantissaBits, hE0]
    rw [if_neg (by norm_num), if_neg (by omega), hzero, BitVec.ofNat_toNat, BitVec.setWidth_eq]
  · -- normal: the hidden bit makes the significand `2^52 + fraction`, of binary length 53
    have hE1 : (@unpackExponent Format.binary64 b).toNat ≠ 2047 := by
      intro h
      exact hinf (BitVec.eq_of_toNat_eq (by simpa using h))
    have hE0 : (@unpackExponent Format.binary64 b).toNat ≠ 0 := by
      intro h
      exact hzero (BitVec.eq_of_toNat_eq (by simpa using h))
    have hsig : (1#1 ++ @unpackMantissa Format.binary64 b).toNat =
        2 ^ 52 + (@unpackMantissa Format.binary64 b).toNat := by
      rw [BitVec.toNat_append, ← Nat.shiftLeft_add_eq_or_of_lt hM, Nat.shiftLeft_eq]
      simp
    have hlog : (2 ^ 52 + (@unpackMantissa Format.binary64 b).toNat).log2 = 52 :=
      (Nat.log2_eq_iff (by positivity)).mpr ⟨by omega, by omega⟩
    simp only [UnpackedFloat.pack, Format.exponentBias, Format.mantissaBits, hsig, hlog]
    rw [if_pos trivial, if_neg (by norm_num; omega)]
    congr 1
    · exact BitVec.eq_of_toNat_eq (by norm_num; omega)
    · exact BitVec.eq_of_toNat_eq (by simp; omega)

/-- A float is the float of its bits. -/
theorem ofBits_toBits (x : Float) : Float.ofBits x.toBits = x := by
  obtain ⟨⟨b, hv⟩⟩ := x
  show Float.ofModel (Float.Model.pack (UnpackedFloat.unpack Format.binary64 b.toBitVec)) =
    Float.ofModel ⟨b, hv⟩
  congr 1
  unfold Float.Model.pack
  simp only [pack_unpack _ hv, UInt64.ofBitVec_toBitVec]

theorem eq_of_toBits_toNat {x : Float} {n : Nat} (h : x.toBits.toNat = n) :
    Float.ofBits n.toUInt64 = x := by
  rw [← h, Nat.toUInt64_eq, UInt64.ofNat_toNat, ofBits_toBits]

theorem toBits_toNat_of_nan {x : Float} (hfield : exponentField x = 2047)
    (hfraction : fractionField x ≠ 0) : x.toBits.toNat = 0x7FF8000000000000 := by
  obtain ⟨⟨b, hv⟩⟩ := x
  have hlt : b.toNat < 2 ^ 64 := b.toNat_lt
  simp only [exponentField, fractionField, Float.toBits, Nat.pow_eq] at hfield hfraction
  have hexp : @unpackExponent Format.binary64 b.toBitVec = -1#11 := by
    apply BitVec.eq_of_toNat_eq
    simp [unpackExponent, Nat.shiftRight_eq_div_pow]
    omega
  have hman : @unpackMantissa Format.binary64 b.toBitVec ≠ 0#52 := by
    intro h0
    have := congrArg BitVec.toNat h0
    simp [unpackMantissa] at this
    omega
  have hnan := congrArg BitVec.toNat (hv.eq_packedNaN hexp hman)
  change b.toBitVec.toNat = _
  rw [hnan]
  rfl

end Model

/-! ## The view of a float -/

theorem toBits_toNat_eq (x : Float) :
    x.toBits.toNat = (if signBit x then 2 ^ 63 else 0) + exponentField x * 2 ^ 52 +
      fractionField x := by
  have hlt : x.toBits.toNat < 2 ^ 64 := x.toBits.toNat_lt
  unfold signBit exponentField fractionField
  simp only [Nat.pow_eq, ge_iff_le, decide_eq_true_eq]
  split_ifs <;> omega

theorem exponentField_lt (x : Float) : exponentField x < 2048 :=
  Nat.mod_lt _ (by decide)

theorem fractionField_lt (x : Float) : fractionField x < 2 ^ 52 :=
  Nat.mod_lt _ (by decide)

theorem view_of_normal {x : Float} (hinf : exponentField x ≠ 2047) (hzero : exponentField x ≠ 0) :
    view x = .finite (signBit x) (fractionField x + 2 ^ 52) ((exponentField x : Int) - 1075) := by
  simp [view, hinf, hzero]

theorem view_of_subnormal {x : Float} (hzero : exponentField x = 0) :
    view x = .finite (signBit x) (fractionField x) (-1074) := by
  simp [view, hzero]

theorem view_of_allOnes {x : Float} (hinf : exponentField x = 2047) :
    view x = if fractionField x = 0 then .infinite (signBit x) else .nan := by
  simp [view, hinf]

/-- Assembling the parts of a finite float gives the float. -/
theorem ofParts_of_view {x : Float} {negative : Bool} {m : Nat} {e : Int}
    (h : view x = .finite negative m e) : ofParts negative m e = x := by
  have hbits := toBits_toNat_eq x
  have hfraction := fractionField_lt x
  by_cases hinf : exponentField x = 2047
  · rw [view_of_allOnes hinf] at h
    split at h <;> cases h
  by_cases hzero : exponentField x = 0
  · rw [view_of_subnormal hzero] at h
    obtain ⟨rfl, rfl, rfl⟩ := View.finite.inj h
    apply eq_of_toBits_toNat
    simp only [Nat.pow_eq, if_pos hfraction]
    rw [hbits, hzero]
    split <;> simp
  · rw [view_of_normal hinf hzero] at h
    obtain ⟨rfl, rfl, rfl⟩ := View.finite.inj h
    apply eq_of_toBits_toNat
    have hbody : ((exponentField x : Int) - 1075 + 1075).toNat = exponentField x := by omega
    simp only [Nat.pow_eq, if_neg (by omega : ¬fractionField x + 2 ^ 52 < 2 ^ 52), hbody,
      Nat.add_sub_cancel]
    rw [hbits]
    split <;> omega

theorem eq_nan_of_view {x : Float} (h : view x = .nan) : x = nan := by
  by_cases hinf : exponentField x = 2047
  · rw [view_of_allOnes hinf] at h
    split at h
    · cases h
    · rename_i hfraction
      exact (eq_of_toBits_toNat (toBits_toNat_of_nan hinf hfraction)).symm
  by_cases hzero : exponentField x = 0
  · rw [view_of_subnormal hzero] at h
    cases h
  · rw [view_of_normal hinf hzero] at h
    cases h

theorem eq_infinity_of_view {x : Float} {negative : Bool} (h : view x = .infinite negative) :
    x = if negative then negInfinity else infinity := by
  have hbits := toBits_toNat_eq x
  by_cases hinf : exponentField x = 2047
  · rw [view_of_allOnes hinf] at h
    split at h
    · rename_i hfraction
      cases h
      rw [hinf, hfraction] at hbits
      unfold negInfinity infinity
      split <;> rename_i hsign <;> simp only [hsign] at hbits
      · exact (eq_of_toBits_toNat hbits).symm
      · exact (eq_of_toBits_toNat hbits).symm
    · cases h
  by_cases hzero : exponentField x = 0
  · rw [view_of_subnormal hzero] at h
    cases h
  · rw [view_of_normal hinf hzero] at h
    cases h

theorem view_finite_cases {x : Float} {negative : Bool} {m : Nat} {e : Int}
    (h : view x = .finite negative m e) :
    (m < 2 ^ 52 ∧ e = -1074) ∨ (2 ^ 52 ≤ m ∧ m < 2 ^ 53 ∧ -1074 ≤ e ∧ e ≤ 971) := by
  have hfield := exponentField_lt x
  have hfraction := fractionField_lt x
  by_cases hinf : exponentField x = 2047
  · rw [view_of_allOnes hinf] at h
    split at h <;> cases h
  by_cases hzero : exponentField x = 0
  · rw [view_of_subnormal hzero] at h
    obtain ⟨rfl, rfl, rfl⟩ := View.finite.inj h
    exact .inl ⟨hfraction, rfl⟩
  · rw [view_of_normal hinf hzero] at h
    obtain ⟨rfl, rfl, rfl⟩ := View.finite.inj h
    right
    omega

end Phenotyping.Binary64
