import Mathlib.Data.Nat.Bitwise
import Mathlib.Data.String.Basic
import Phenotyping.Criterion
/-! # Mask bits and compiled criteria

A mask is read bit by bit through `Nat.testBit` of its word. Setting a bit below 64 turns on
that bit alone, and a compiled criterion admits a mask exactly when the mask has every bit of
the positive mask and none of the negative one. Compiling a criterion against a table of at
most 64 channels gives, on each side, the mask of the bits of that side's channels, unless a
channel is on both sides or outside the table. For a criterion built from lists, the channel
outside the table that compiling reports is the least one of its side in code point order.
-/
namespace Phenotyping
set_option autoImplicit false

namespace Mask

theorem test_eq_testBit (m : Mask) {b : Nat} (hb : b < 64) : m.test b = m.bits.toNat.testBit b := by
  have hshift : b.toUInt64.toNat % 64 = b := by
    simp [Nat.toUInt64]
    omega
  rw [Nat.testBit, test, Bool.eq_iff_iff]
  simp only [bne_iff_ne, ne_eq, ← UInt64.toNat_inj, UInt64.toNat_and, UInt64.toNat_shiftRight,
    hshift]
  simp [Nat.and_comm]

theorem toNat_set (m : Mask) {b : Nat} (hb : b < 64) :
    (m.set b).bits.toNat = m.bits.toNat ||| 2 ^ b := by
  have hshift : b.toUInt64.toNat % 64 = b := by
    simp [Nat.toUInt64]
    omega
  have hlt : 2 ^ b < 2 ^ 64 := Nat.pow_lt_pow_right (by decide) hb
  rw [set, UInt64.toNat_or, UInt64.toNat_shiftLeft, hshift, UInt64.toNat_one, Nat.one_shiftLeft,
    Nat.mod_eq_of_lt hlt]

theorem test_set (m : Mask) {b b' : Nat} (hb : b < 64) (hb' : b' < 64) :
    (m.set b).test b' = (decide (b' = b) || m.test b') := by
  rw [test_eq_testBit _ hb', test_eq_testBit _ hb', toNat_set m hb, Nat.testBit_or,
    Nat.testBit_two_pow, Bool.or_comm]
  simp [eq_comm]

@[simp] theorem test_empty (b : Nat) : empty.test b = false := by
  simp [test, empty]

theorem testBit_toNat_of_le (x : UInt64) {i : Nat} (hi : 64 ≤ i) : x.toNat.testBit i = false :=
  Nat.testBit_lt_two_pow (lt_of_lt_of_le x.toNat_lt (Nat.pow_le_pow_right (by decide) hi))

end Mask

theorem and_eq_right_iff_testBit (x p : Nat) :
    x &&& p = p ↔ ∀ i, p.testBit i = true → x.testBit i = true := by
  constructor
  · intro h i hp
    have := congrArg (Nat.testBit · i) h
    simp only [Nat.testBit_and, hp, Bool.and_true] at this
    exact this
  · intro h
    apply Nat.eq_of_testBit_eq
    intro i
    cases hp : p.testBit i with
    | false => simp [Nat.testBit_and, hp]
    | true => simp [Nat.testBit_and, hp, h i hp]

theorem and_eq_zero_iff_testBit (x n : Nat) :
    x &&& n = 0 ↔ ∀ i, n.testBit i = true → x.testBit i = false := by
  constructor
  · intro h i hn
    have := congrArg (Nat.testBit · i) h
    simp only [Nat.testBit_and, hn, Bool.and_true, Nat.zero_testBit] at this
    exact this
  · intro h
    apply Nat.eq_of_testBit_eq
    intro i
    cases hn : n.testBit i with
    | false => simp [Nat.testBit_and, hn]
    | true => simp [Nat.testBit_and, hn, h i hn]

namespace CompiledCriterion

/-- A compiled criterion admits a mask exactly when every positive bit is set in it and no
negative bit is. -/
theorem admits_iff (cc : CompiledCriterion) (m : Mask) :
    cc.admits m = true ↔
      (∀ b < 64, cc.positiveMask.test b = true → m.test b = true) ∧
        (∀ b < 64, cc.negativeMask.test b = true → m.test b = false) := by
  simp only [admits, Bool.and_eq_true, beq_iff_eq, ← UInt64.toNat_inj, UInt64.toNat_and,
    UInt64.toNat_zero, and_eq_right_iff_testBit, and_eq_zero_iff_testBit]
  constructor
  · rintro ⟨hpos, hneg⟩
    refine ⟨fun b hb hp => ?_, fun b hb hn => ?_⟩
    · rw [Mask.test_eq_testBit _ hb] at hp ⊢
      exact hpos b hp
    · rw [Mask.test_eq_testBit _ hb] at hn ⊢
      exact hneg b hn
  · rintro ⟨hpos, hneg⟩
    -- bits at 64 and above are clear in every word, so only the first 64 matter
    refine ⟨fun i hp => ?_, fun i hn => ?_⟩
    · by_cases hi : i < 64
      · rw [← Mask.test_eq_testBit _ hi] at hp ⊢
        exact hpos i hi hp
      · rw [Mask.testBit_toNat_of_le _ (by omega)] at hp
        cases hp
    · by_cases hi : i < 64
      · rw [← Mask.test_eq_testBit _ hi] at hn ⊢
        exact hneg i hi hn
      · rw [Mask.testBit_toNat_of_le _ (by omega)] at hn
        cases hn

end CompiledCriterion

namespace ChannelTable

theorem bitOf_lt {t : ChannelTable} {c : String} {b : Nat} (h : t.bitOf c = some b) : b < t.len :=
  (List.idxOf?_eq_some_iff.mp h).1

theorem bitOf_lt_capacity {t : ChannelTable} {c : String} {b : Nat} (h : t.bitOf c = some b) :
    b < 64 :=
  lt_of_lt_of_le (bitOf_lt h) t.len_le_capacity

theorem getElem?_of_bitOf {t : ChannelTable} {c : String} {b : Nat} (h : t.bitOf c = some b) :
    t.layout[b]? = some c := by
  obtain ⟨hb, hc, -⟩ := List.idxOf?_eq_some_iff.mp h
  simp [hb, hc]

end ChannelTable

namespace Criterion

theorem overlap_eq_nil_iff (crit : Criterion) :
    crit.overlap = [] ↔ ¬∃ c ∈ crit.positive, c ∈ crit.negative := by
  simp [overlap, List.filter_eq_nil_iff]

theorem maskOf_of_find?_some {t : ChannelTable} {cs : List String} {c : String}
    (h : cs.find? (fun c => t.bitOf c = none) = some c) :
    maskOf t cs = .error (.unknownChannel c) := by
  induction cs with
  | nil => simp at h
  | cons d ds ih =>
    rw [List.find?_cons] at h
    cases hd : t.bitOf d with
    | none =>
      simp only [hd, decide_true] at h
      cases h
      simp [maskOf, hd]
    | some b =>
      simp only [hd, reduceCtorEq, decide_false] at h
      simp [maskOf, hd, ih h, Except.map]

theorem maskOf_of_find?_none {t : ChannelTable} {cs : List String} (h : cs.find? (fun c => t.bitOf c = none) = none) :
    ∃ m, maskOf t cs = .ok m ∧ ∀ b < 64, m.test b = true ↔ ∃ c ∈ cs, t.bitOf c = some b := by
  induction cs with
  | nil => exact ⟨Mask.empty, rfl, by simp⟩
  | cons d ds ih =>
    rw [List.find?_cons] at h
    cases hd : t.bitOf d with
    | none => simp [hd] at h
    | some bd =>
      simp only [hd, reduceCtorEq, decide_false] at h
      obtain ⟨m, hm, htest⟩ := ih h
      refine ⟨m.set bd, by simp [maskOf, hd, hm, Except.map], fun b hb => ?_⟩
      rw [Mask.test_set m (ChannelTable.bitOf_lt_capacity hd) hb, Bool.or_eq_true,
        decide_eq_true_iff, htest b hb]
      simp only [List.mem_cons, exists_eq_or_imp, hd, Option.some.injEq]
      rw [eq_comm]

theorem compile_of_overlap {t : ChannelTable} {crit : Criterion}
    (h : ∃ c ∈ crit.positive, c ∈ crit.negative) :
    crit.compile t = .error (.contradictoryCriterion crit.overlap) := by
  have hoverlap : crit.overlap ≠ [] := fun he => (overlap_eq_nil_iff crit).mp he h
  simp [compile, hoverlap]

theorem compile_of_unknown {t : ChannelTable} {crit : Criterion} {c : String} (hdisjoint : ¬∃ c ∈ crit.positive, c ∈ crit.negative)
    (h : (crit.positive ++ crit.negative).find? (fun c => t.bitOf c = none) = some c) :
    crit.compile t = .error (.unknownChannel c) := by
  have hoverlap : crit.overlap = [] := (overlap_eq_nil_iff crit).mpr hdisjoint
  rw [List.find?_append] at h
  cases hpos : crit.positive.find? (fun c => t.bitOf c = none) with
  | some d =>
    rw [hpos, Option.some_or] at h
    cases h
    simp [compile, hoverlap, maskOf_of_find?_some hpos, bind, Except.bind]
  | none =>
    rw [hpos, Option.none_or] at h
    obtain ⟨m, hm, -⟩ := maskOf_of_find?_none hpos
    simp [compile, hoverlap, hm, maskOf_of_find?_some h, bind, Except.bind]

/-- A compiled criterion admits a mask exactly when the mask has the bit of every positive
channel and of no negative one. -/
theorem compile_of_known {t : ChannelTable} {crit : Criterion} (hdisjoint : ¬∃ c ∈ crit.positive, c ∈ crit.negative)
    (hknown : (crit.positive ++ crit.negative).find? (fun c => t.bitOf c = none) = none) :
    ∃ cc, crit.compile t = .ok cc ∧ cc.tableVersion = t.version ∧ cc.channels = t.layout ∧
      ∀ m, cc.admits m = true ↔
        (∀ c ∈ crit.positive, ∀ b, t.bitOf c = some b → m.test b = true) ∧
          (∀ c ∈ crit.negative, ∀ b, t.bitOf c = some b → m.test b = false) := by
  rw [List.find?_append, Option.or_eq_none_iff] at hknown
  obtain ⟨pos, hpos, hpostest⟩ := maskOf_of_find?_none hknown.1
  obtain ⟨neg, hneg, hnegtest⟩ := maskOf_of_find?_none hknown.2
  have hoverlap : crit.overlap = [] := (overlap_eq_nil_iff crit).mpr hdisjoint
  refine ⟨⟨pos, neg, t.version, t.layout⟩, by simp [compile, hoverlap, hpos, hneg, bind, Except.bind, pure, Except.pure],
    rfl, rfl,
    fun m => ?_⟩
  rw [CompiledCriterion.admits_iff]
  have hsmall : ∀ {c b}, t.bitOf c = some b → b < 64 := ChannelTable.bitOf_lt_capacity
  constructor
  · rintro ⟨hp, hn⟩
    exact ⟨fun c hc b hb => hp b (hsmall hb) ((hpostest b (hsmall hb)).mpr ⟨c, hc, hb⟩),
      fun c hc b hb => hn b (hsmall hb) ((hnegtest b (hsmall hb)).mpr ⟨c, hc, hb⟩)⟩
  · rintro ⟨hp, hn⟩
    refine ⟨fun b hb hbit => ?_, fun b hb hbit => ?_⟩
    · obtain ⟨c, hc, hcb⟩ := (hpostest b hb).mp hbit
      exact hp c hc b hcb
    · obtain ⟨c, hc, hcb⟩ := (hnegtest b hb).mp hbit
      exact hn c hc b hcb

/-! ## Criteria built from lists

`ofLists` keeps each side as a strictly ascending set, in code point order, so the first
channel of a side that passes a test is the least channel of the list that passes it. -/

theorem mem_insertSorted {a x : String} {l : List String} :
    a ∈ insertSorted x l ↔ a = x ∨ a ∈ l := by
  induction l with
  | nil => simp [insertSorted]
  | cons y ys ih =>
    simp only [insertSorted]
    split_ifs with hlt heq
    · exact List.mem_cons
    · subst heq
      simp
    · rw [List.mem_cons, ih, List.mem_cons, or_left_comm]

theorem pairwise_insertSorted (x : String) {l : List String} (hl : l.Pairwise (· < ·)) :
    (insertSorted x l).Pairwise (· < ·) := by
  induction l with
  | nil => simp [insertSorted]
  | cons y ys ih =>
    obtain ⟨hy, hys⟩ := List.pairwise_cons.mp hl
    simp only [insertSorted]
    split_ifs with hlt heq
    · -- `x` goes in front, below `y` and so below the whole list
      refine List.pairwise_cons.mpr ⟨fun b hb => ?_, hl⟩
      rcases List.mem_cons.mp hb with rfl | hb
      · exact hlt
      · exact lt_trans hlt (hy b hb)
    · exact hl
    · have hyx : y < x := lt_of_le_of_ne (not_lt.mp hlt) (Ne.symm heq)
      refine List.pairwise_cons.mpr ⟨fun b hb => ?_, ih hys⟩
      rcases mem_insertSorted.mp hb with rfl | hb
      · exact hyx
      · exact hy b hb

theorem foldl_insertSorted (xs : List String) {acc : List String} (hacc : acc.Pairwise (· < ·)) :
    (xs.foldl (fun acc x => insertSorted x acc) acc).Pairwise (· < ·) ∧
      ∀ a, a ∈ xs.foldl (fun acc x => insertSorted x acc) acc ↔ a ∈ acc ∨ a ∈ xs := by
  induction xs generalizing acc with
  | nil =>
    simp only [List.foldl_nil, List.not_mem_nil, or_false]
    exact ⟨hacc, fun _ => trivial⟩
  | cons x xs ih =>
    obtain ⟨hsorted, hmem⟩ := ih (pairwise_insertSorted x hacc)
    refine ⟨hsorted, fun a => ?_⟩
    rw [List.foldl_cons, hmem, mem_insertSorted, List.mem_cons, or_left_comm, or_assoc]

theorem pairwise_sortedSet (xs : List String) : (sortedSet xs).Pairwise (· < ·) :=
  (foldl_insertSorted xs List.Pairwise.nil).1

@[simp] theorem mem_sortedSet {a : String} {xs : List String} : a ∈ sortedSet xs ↔ a ∈ xs := by
  rw [sortedSet]
  simpa using (foldl_insertSorted xs List.Pairwise.nil).2 a

theorem find?_le_of_pairwise {q : String → Bool} {l : List String} (hl : l.Pairwise (· < ·))
    {c : String} (h : l.find? q = some c) : ∀ d ∈ l, q d = true → c ≤ d := by
  induction l with
  | nil => simp at h
  | cons a l ih =>
    obtain ⟨ha, hl⟩ := List.pairwise_cons.mp hl
    intro d hd hq
    by_cases hqa : q a = true
    · rw [List.find?_cons_of_pos hqa, Option.some.injEq] at h
      subst h
      rcases List.mem_cons.mp hd with rfl | hd
      · exact le_refl _
      · exact le_of_lt (ha d hd)
    · rw [List.find?_cons_of_neg hqa] at h
      rcases List.mem_cons.mp hd with rfl | hd
      · exact absurd hq hqa
      · exact ih hl h d hd hq

theorem find?_sortedSet_eq_some_iff (q : String → Bool) (xs : List String) (c : String) :
    (sortedSet xs).find? q = some c ↔ c ∈ xs ∧ q c = true ∧ ∀ d ∈ xs, q d = true → c ≤ d := by
  constructor
  · intro h
    refine ⟨mem_sortedSet.mp (List.mem_of_find?_eq_some h), List.find?_some h, fun d hd hq => ?_⟩
    exact find?_le_of_pairwise (pairwise_sortedSet xs) h d (mem_sortedSet.mpr hd) hq
  · rintro ⟨hc, hq, hleast⟩
    cases hf : (sortedSet xs).find? q with
    | none =>
      have hfail := List.find?_eq_none.mp hf c (mem_sortedSet.mpr hc)
      exact absurd hq hfail
    | some c' =>
      -- what the search finds is least too, so it is `c`
      have hc' := mem_sortedSet.mp (List.mem_of_find?_eq_some hf)
      have hle := find?_le_of_pairwise (pairwise_sortedSet xs) hf c (mem_sortedSet.mpr hc) hq
      rw [le_antisymm hle (hleast c' hc' (List.find?_some hf))]

theorem find?_ofLists_eq_some_iff (q : String → Bool) (pos neg : List String) (c : String) :
    ((ofLists pos neg).positive ++ (ofLists pos neg).negative).find? q = some c ↔
      (c ∈ pos ∧ q c = true ∧ ∀ d ∈ pos, q d = true → c ≤ d) ∨
        ((∀ d ∈ pos, q d = false) ∧ c ∈ neg ∧ q c = true ∧ ∀ d ∈ neg, q d = true → c ≤ d) := by
  rw [List.find?_append, Option.or_eq_some_iff, ofLists, find?_sortedSet_eq_some_iff,
    find?_sortedSet_eq_some_iff, List.find?_eq_none]
  simp only [mem_sortedSet, Bool.not_eq_true]

theorem compile_ofLists_eq_unknown_iff {t : ChannelTable} {pos neg : List String} (hdisjoint : ∀ c ∈ pos, c ∉ neg) (c : String) :
    (ofLists pos neg).compile t = .error (.unknownChannel c) ↔
      (c ∈ pos ∧ t.bitOf c = none ∧ ∀ d ∈ pos, t.bitOf d = none → c ≤ d) ∨
        ((∀ d ∈ pos, t.bitOf d ≠ none) ∧ c ∈ neg ∧ t.bitOf c = none ∧
          ∀ d ∈ neg, t.bitOf d = none → c ≤ d) := by
  have hdis : ¬∃ c ∈ (ofLists pos neg).positive, c ∈ (ofLists pos neg).negative := by
    rintro ⟨d, hp, hn⟩
    exact hdisjoint d (mem_sortedSet.mp hp) (mem_sortedSet.mp hn)
  have hsearch := find?_ofLists_eq_some_iff (fun c => t.bitOf c = none) pos neg c
  simp only [decide_eq_true_eq, decide_eq_false_iff_not] at hsearch
  rw [← hsearch]
  constructor
  · intro h
    cases hf : ((ofLists pos neg).positive ++ (ofLists pos neg).negative).find?
        (fun c => t.bitOf c = none) with
    | none =>
      obtain ⟨cc, hcc, -⟩ := compile_of_known hdis hf
      rw [hcc] at h
      cases h
    | some c' =>
      rw [compile_of_unknown hdis hf] at h
      cases h
      rfl
  · exact compile_of_unknown hdis

end Criterion

theorem CompiledCriterion.count_of_stamps {t : ChannelTable} {cc : CompiledCriterion}
    {a : CellMasks} (hcv : cc.tableVersion = t.version) (hcc : cc.channels = t.layout)
    (hav : a.tableVersion = t.version) (hac : a.channels = t.layout) :
    cc.count t a = .ok (a.masks.filter cc.admits).length := by
  simp [count, checkLayout, checkStamp, hcv, hcc, hav, hac, ChannelTable.hasLayout, bind,
    Except.bind, pure, Except.pure]

end Phenotyping
