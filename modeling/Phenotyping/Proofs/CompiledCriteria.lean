import Mathlib.Data.List.Sort
import Phenotyping.Proofs.MaskBits
/-! # Compiled criteria as sets of bits

A criterion whose sides are sets of channels compiles against a channel table
in three ways. A channel on both sides is refused first, and the refusal lists all such
channels in code point order. Then the least channel outside the table is refused, of the
positive side before the negative one. Otherwise each side becomes the mask whose set bits
are exactly the bits of that side's channels. The two masks share no bit, because a bit
belongs to one channel only, and a mask matches when every positive bit is set in it and no
negative bit is.
-/
namespace Phenotyping
set_option autoImplicit false

namespace Mask

theorem testBit_iff_of_test {m : Mask} {P : Nat → Prop} (hP : ∀ b, P b → b < 64)
    (h : ∀ b < 64, m.test b = true ↔ P b) (b : Nat) : m.bits.toNat.testBit b = true ↔ P b := by
  by_cases hb : b < 64
  · rw [← test_eq_testBit m hb]
    exact h b hb
  · rw [testBit_toNat_of_le _ (by omega)]
    exact ⟨fun hfalse => absurd hfalse Bool.false_ne_true, fun hp => absurd (hP b hp) hb⟩

end Mask

namespace ChannelTable

theorem eq_of_bitOf_eq {t : ChannelTable} {c d : String} {b : Nat} (hc : t.bitOf c = some b)
    (hd : t.bitOf d = some b) : c = d := by
  have hcb := getElem?_of_bitOf hc
  rw [getElem?_of_bitOf hd, Option.some.injEq] at hcb
  exact hcb.symm

end ChannelTable

namespace Criterion

variable {t : ChannelTable}

theorem find?_eq_none_of_maskOf {cs : List String} {m : Mask} (h : maskOf t cs = .ok m) :
    cs.find? (fun c => t.bitOf c = none) = none := by
  cases hfind : cs.find? (fun c => t.bitOf c = none) with
  | none => rfl
  | some c =>
    rw [maskOf_of_find?_some hfind] at h
    cases h

theorem testBit_maskOf {cs : List String} {m : Mask}
    (h : maskOf t cs = .ok m) (b : Nat) :
    m.bits.toNat.testBit b = true ↔ ∃ c ∈ cs, t.bitOf c = some b := by
  obtain ⟨m', hm', htest⟩ := maskOf_of_find?_none (find?_eq_none_of_maskOf h)
  rw [hm', Except.ok.injEq] at h
  subst h
  -- every channel's bit is below 64, so the bits above 63 agree as well
  exact Mask.testBit_iff_of_test
    (fun b ⟨_, _, hc⟩ => ChannelTable.bitOf_lt_capacity hc) htest b

theorem compile_of_overlap_nil {crit : Criterion} (h : crit.overlap = []) :
    crit.compile t = (do
      let pos ← maskOf t crit.positive
      let neg ← maskOf t crit.negative
      pure ⟨pos, neg, t.version, t.layout⟩) := by
  simp [compile, h]

theorem compile_eq_ok_iff {crit : Criterion} {cc : CompiledCriterion} :
    crit.compile t = .ok cc ↔ crit.overlap = [] ∧ ∃ pos neg, maskOf t crit.positive = .ok pos ∧
      maskOf t crit.negative = .ok neg ∧ cc = ⟨pos, neg, t.version, t.layout⟩ := by
  by_cases hover : crit.overlap = []
  · rw [compile_of_overlap_nil hover]
    cases hpos : maskOf t crit.positive with
    | error e => simp [bind, Except.bind]
    | ok pos =>
      cases hneg : maskOf t crit.negative with
      | error e => simp [bind, Except.bind]
      | ok neg =>
        simp only [bind, Except.bind, pure, Except.pure, Except.ok.injEq, true_and, hover]
        exact ⟨fun h => ⟨pos, neg, rfl, rfl, h.symm⟩, fun ⟨_, _, hp, hn, h⟩ => by
          cases hp
          cases hn
          exact h.symm⟩
  · simp [compile, hover]

theorem maskOf_error {cs : List String} {e : MatchError} (h : maskOf t cs = .error e) :
    ∃ c, e = .unknownChannel c := by
  induction cs with
  | nil => cases h
  | cons c cs ih =>
    cases hc : t.bitOf c with
    | none =>
      simp only [maskOf, hc, Except.error.injEq] at h
      exact ⟨c, h.symm⟩
    | some b =>
      cases hrest : maskOf t cs with
      | error e' =>
        simp only [maskOf, hc, hrest, Except.map, Except.error.injEq] at h
        subst h
        exact ih hrest
      | ok m => simp [maskOf, hc, hrest, Except.map] at h

theorem compile_eq_contradictory_iff {crit : Criterion} {cs : List String} :
    crit.compile t = .error (.contradictoryCriterion cs) ↔ crit.overlap ≠ [] ∧ crit.overlap = cs := by
  by_cases hover : crit.overlap = []
  · -- past the overlap test only building a mask can fail, and only for an unknown channel
    simp only [hover, ne_eq, not_true_eq_false, false_and, iff_false]
    intro h
    rw [compile_of_overlap_nil hover] at h
    cases hpos : maskOf t crit.positive with
    | error e =>
      obtain ⟨c, rfl⟩ := maskOf_error hpos
      simp [hpos, bind, Except.bind] at h
    | ok pos =>
      cases hneg : maskOf t crit.negative with
      | error e =>
        obtain ⟨c, rfl⟩ := maskOf_error hneg
        simp [hpos, hneg, bind, Except.bind] at h
      | ok neg => simp [hpos, hneg, bind, Except.bind, pure, Except.pure] at h
  · simp [compile, hover]

/-- Compiled masks share no bit: a shared bit would belong to a channel on both sides. -/
theorem masks_disjoint_of_compile {crit : Criterion}
    {cc : CompiledCriterion} (h : crit.compile t = .ok cc) :
    cc.positiveMask.bits &&& cc.negativeMask.bits = 0 := by
  obtain ⟨hover, pos, neg, hpos, hneg, rfl⟩ := compile_eq_ok_iff.mp h
  apply UInt64.toNat_inj.mp
  rw [UInt64.toNat_and, UInt64.toNat_zero]
  apply Nat.eq_of_testBit_eq
  intro b
  rw [Nat.testBit_and, Nat.zero_testBit]
  cases hp : pos.bits.toNat.testBit b with
  | false => rfl
  | true =>
    cases hn : neg.bits.toNat.testBit b with
    | false => rfl
    | true =>
      obtain ⟨c, hc, hcb⟩ := (testBit_maskOf hpos b).mp hp
      obtain ⟨d, hd, hdb⟩ := (testBit_maskOf hneg b).mp hn
      have hcd : c = d := ChannelTable.eq_of_bitOf_eq hcb hdb
      subst hcd
      exact absurd ⟨c, hc, hd⟩ ((overlap_eq_nil_iff crit).mp hover)

/-! ## Criteria whose sides are sets

`ofLists` keeps each side strictly ascending, so the channels on both sides come out in code
point order, each once. -/

variable {pos neg : List String}

theorem mem_overlap_ofLists {c : String} : c ∈ (ofLists pos neg).overlap ↔ c ∈ pos ∧ c ∈ neg := by
  simp [overlap, ofLists]

theorem overlap_ofLists_eq_iff {cs : List String} :
    (ofLists pos neg).overlap = cs ↔ cs.Pairwise (· < ·) ∧ ∀ c, c ∈ cs ↔ c ∈ pos ∧ c ∈ neg := by
  have hsorted : (ofLists pos neg).overlap.Pairwise (· < ·) := (pairwise_sortedSet pos).filter _
  constructor
  · rintro rfl
    exact ⟨hsorted, fun c => mem_overlap_ofLists⟩
  · rintro ⟨hcs, hmem⟩
    exact List.Pairwise.eq_of_mem_iff hsorted hcs fun c => by rw [mem_overlap_ofLists, hmem]

theorem overlap_ofLists_eq_nil_iff : (ofLists pos neg).overlap = [] ↔ ∀ c ∈ pos, c ∉ neg := by
  simp only [List.eq_nil_iff_forall_not_mem, mem_overlap_ofLists, not_and]

theorem compile_ofLists_eq_contradictory_iff (cs : List String) :
    (ofLists pos neg).compile t = .error (.contradictoryCriterion cs) ↔
      cs ≠ [] ∧ cs.Pairwise (· < ·) ∧ ∀ c, c ∈ cs ↔ c ∈ pos ∧ c ∈ neg := by
  rw [compile_eq_contradictory_iff]
  constructor
  · rintro ⟨hne, rfl⟩
    exact ⟨hne, overlap_ofLists_eq_iff.mp rfl⟩
  · rintro ⟨hne, hcs⟩
    have hover := overlap_ofLists_eq_iff.mpr hcs
    exact ⟨by rw [hover]; exact hne, hover⟩

theorem compile_ofLists_eq_unknown_iff_disjoint
    (c : String) :
    (ofLists pos neg).compile t = .error (.unknownChannel c) ↔ (∀ d ∈ pos, d ∉ neg) ∧
      ((c ∈ pos ∧ t.bitOf c = none ∧ ∀ d ∈ pos, t.bitOf d = none → c ≤ d) ∨
        ((∀ d ∈ pos, t.bitOf d ≠ none) ∧ c ∈ neg ∧ t.bitOf c = none ∧
          ∀ d ∈ neg, t.bitOf d = none → c ≤ d)) := by
  by_cases hdisjoint : ∀ d ∈ pos, d ∉ neg
  · rw [compile_ofLists_eq_unknown_iff hdisjoint c, and_iff_right hdisjoint]
  · rw [← overlap_ofLists_eq_nil_iff] at hdisjoint
    simp only [compile, if_pos hdisjoint, Except.error.injEq, reduceCtorEq, false_iff, not_and]
    exact fun h => absurd (overlap_ofLists_eq_nil_iff.mpr h) hdisjoint

theorem compile_ofLists_of_known (pos neg : List String)
    (hdisjoint : ∀ d ∈ pos, d ∉ neg) (hknown : ∀ d ∈ pos ++ neg, t.bitOf d ≠ none) :
    ∃ cc, (ofLists pos neg).compile t = .ok cc ∧ cc.tableVersion = t.version ∧
      cc.channels = t.layout ∧
      (∀ b, cc.positiveMask.bits.toNat.testBit b = true ↔ ∃ c ∈ pos, t.bitOf c = some b) ∧
      (∀ b, cc.negativeMask.bits.toNat.testBit b = true ↔ ∃ c ∈ neg, t.bitOf c = some b) ∧
      ∀ m : Mask, cc.admits m = true ↔
        (∀ c ∈ pos, ∀ b, t.bitOf c = some b → m.test b = true) ∧
          (∀ c ∈ neg, ∀ b, t.bitOf c = some b → m.test b = false) := by
  have hdis : ¬∃ c ∈ (ofLists pos neg).positive, c ∈ (ofLists pos neg).negative := by
    rintro ⟨d, hp, hn⟩
    exact hdisjoint d (mem_sortedSet.mp hp) (mem_sortedSet.mp hn)
  have hfind : ((ofLists pos neg).positive ++ (ofLists pos neg).negative).find?
      (fun c => t.bitOf c = none) = none := by
    refine List.find?_eq_none.mpr fun d hd => ?_
    have hd' : d ∈ pos ++ neg := by
      simpa [ofLists, mem_sortedSet] using hd
    simpa using hknown d hd'
  obtain ⟨cc, hcc, hver, hch, hadmits⟩ := compile_of_known hdis hfind
  obtain ⟨-, pm, nm, hpm, hnm, rfl⟩ := compile_eq_ok_iff.mp hcc
  refine ⟨_, hcc, hver, hch, fun b => ?_, fun b => ?_, fun m => ?_⟩
  · simpa [ofLists] using testBit_maskOf hpm b
  · simpa [ofLists] using testBit_maskOf hnm b
  · simpa [ofLists] using hadmits m

/-- Compiling a criterion whose sides are the sets of two channel lists: a channel on both sides is refused first, with all such channels in code
point order; then the least unknown channel, of the positive side before the negative one.
Otherwise each mask holds exactly the bits of its side's channels, the masks are disjoint, and
a mask is admitted when it has the bit of every positive channel and of no negative one. -/
theorem compile_ofLists_outcomes (pos neg : List String) :
    (∀ cs, (ofLists pos neg).compile t = .error (.contradictoryCriterion cs) ↔
        cs ≠ [] ∧ cs.Pairwise (· < ·) ∧ ∀ c, c ∈ cs ↔ c ∈ pos ∧ c ∈ neg) ∧
    (∀ c, (ofLists pos neg).compile t = .error (.unknownChannel c) ↔ (∀ d ∈ pos, d ∉ neg) ∧
        ((c ∈ pos ∧ t.bitOf c = none ∧ ∀ d ∈ pos, t.bitOf d = none → c ≤ d) ∨
          ((∀ d ∈ pos, t.bitOf d ≠ none) ∧ c ∈ neg ∧ t.bitOf c = none ∧
            ∀ d ∈ neg, t.bitOf d = none → c ≤ d))) ∧
    ((∀ d ∈ pos, d ∉ neg) → (∀ d ∈ pos ++ neg, t.bitOf d ≠ none) →
      ∃ cc, (ofLists pos neg).compile t = .ok cc ∧ cc.tableVersion = t.version ∧
        cc.channels = t.layout ∧
        (∀ b, cc.positiveMask.bits.toNat.testBit b = true ↔ ∃ c ∈ pos, t.bitOf c = some b) ∧
        (∀ b, cc.negativeMask.bits.toNat.testBit b = true ↔ ∃ c ∈ neg, t.bitOf c = some b) ∧
        cc.positiveMask.bits &&& cc.negativeMask.bits = 0 ∧
        ∀ m : Mask, cc.admits m = true ↔
          (∀ c ∈ pos, ∀ b, t.bitOf c = some b → m.test b = true) ∧
            (∀ c ∈ neg, ∀ b, t.bitOf c = some b → m.test b = false)) := by
  refine ⟨compile_ofLists_eq_contradictory_iff, compile_ofLists_eq_unknown_iff_disjoint,
    fun hdisjoint hknown => ?_⟩
  obtain ⟨cc, hcc, hver, hch, hpos, hneg, hadmits⟩ :=
    compile_ofLists_of_known pos neg hdisjoint hknown
  exact ⟨cc, hcc, hver, hch, hpos, hneg, masks_disjoint_of_compile hcc, hadmits⟩

/-- The three-channel table of the examples, compiling `CD15+ CD3-`. -/
theorem compile_ofLists_outcomes_cd15_not_cd3 :
    let t : ChannelTable := ⟨4, ["CD3", "CD15", "CD20"], by decide⟩
    let pos := ["CD15"]
    let neg := ["CD3"]
    (∀ cs, (ofLists pos neg).compile t = .error (.contradictoryCriterion cs) ↔
        cs ≠ [] ∧ cs.Pairwise (· < ·) ∧ ∀ c, c ∈ cs ↔ c ∈ pos ∧ c ∈ neg) ∧
    (∀ c, (ofLists pos neg).compile t = .error (.unknownChannel c) ↔ (∀ d ∈ pos, d ∉ neg) ∧
        ((c ∈ pos ∧ t.bitOf c = none ∧ ∀ d ∈ pos, t.bitOf d = none → c ≤ d) ∨
          ((∀ d ∈ pos, t.bitOf d ≠ none) ∧ c ∈ neg ∧ t.bitOf c = none ∧
            ∀ d ∈ neg, t.bitOf d = none → c ≤ d))) ∧
    ((∀ d ∈ pos, d ∉ neg) → (∀ d ∈ pos ++ neg, t.bitOf d ≠ none) →
      ∃ cc, (ofLists pos neg).compile t = .ok cc ∧ cc.tableVersion = t.version ∧
        cc.channels = t.layout ∧
        (∀ b, cc.positiveMask.bits.toNat.testBit b = true ↔ ∃ c ∈ pos, t.bitOf c = some b) ∧
        (∀ b, cc.negativeMask.bits.toNat.testBit b = true ↔ ∃ c ∈ neg, t.bitOf c = some b) ∧
        cc.positiveMask.bits &&& cc.negativeMask.bits = 0 ∧
        ∀ m : Mask, cc.admits m = true ↔
          (∀ c ∈ pos, ∀ b, t.bitOf c = some b → m.test b = true) ∧
            (∀ c ∈ neg, ∀ b, t.bitOf c = some b → m.test b = false)) := by
  intro t pos neg
  exact compile_ofLists_outcomes pos neg

example : (ofLists ["CD15", "CD3"] ["CD15"]).compile ⟨4, ["CD3", "CD15", "CD20"], by decide⟩ =
    .error (.contradictoryCriterion ["CD15"]) := rfl

end Criterion
end Phenotyping
