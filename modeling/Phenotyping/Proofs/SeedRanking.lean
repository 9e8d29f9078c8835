import Phenotyping.Separation.Seed
/-! # Seeding marks the top-ranked cells

Seeding ranks the cells by value from the top in the IEEE total order, equal values by
cell index, and marks the first `k` of them, `k` being the fraction of the cell count rounded
half away from zero. Since no two cells share an index, the ranking is a strict total order
on the cells, so the sorted list holds each cell at the position given by the number of cells
ranked before it: a cell is marked exactly when fewer than `k` cells rank before it. The
marks are set one index at a time in a list of `n` unmarked cells, so there are `min k n`
of them.
-/
namespace Phenotyping.Separation
set_option autoImplicit false

open Binary64

/-- Cell `a` ranks strictly before cell `b`: a higher value in the IEEE total order, or the
same value and a lower index. -/
def RanksBefore (a b : Float × Nat) : Prop :=
  totalKey b.1 < totalKey a.1 ∨ (totalKey a.1 = totalKey b.1 ∧ a.2 < b.2)

instance (a b : Float × Nat) : Decidable (RanksBefore a b) :=
  inferInstanceAs (Decidable (_ ∨ _))

def rankOf (values : List Float) (v : Float) (i : Nat) : Nat :=
  values.zipIdx.countP fun p => decide (RanksBefore p (v, i))

/-! ## A list sorted by a preorder that separates its elements -/

section Sorted

variable {α : Type} {le : α → α → Bool} {lt : α → α → Prop} [DecidableRel lt]

theorem mem_take_iff_countP_lt {L : List α} (hsorted : L.Pairwise fun a b => le a b = true)
    (hlt : ∀ a ∈ L, ∀ b ∈ L, lt a b ↔ le a b = true ∧ a ≠ b)
    (hanti : ∀ a ∈ L, ∀ b ∈ L, le a b = true → le b a = true → a = b) {x : α} (hx : x ∈ L)
    (k : Nat) : x ∈ L.take k ↔ L.countP (fun y => decide (lt y x)) < k := by
  induction L generalizing k with
  | nil => simp at hx
  | cons y L ih =>
    obtain ⟨hy, hL⟩ := List.pairwise_cons.mp hsorted
    have hlt' : ∀ a ∈ L, ∀ b ∈ L, lt a b ↔ le a b = true ∧ a ≠ b := fun a ha b hb =>
      hlt a (List.mem_cons_of_mem y ha) b (List.mem_cons_of_mem y hb)
    have hanti' : ∀ a ∈ L, ∀ b ∈ L, le a b = true → le b a = true → a = b := fun a ha b hb =>
      hanti a (List.mem_cons_of_mem y ha) b (List.mem_cons_of_mem y hb)
    by_cases hxy : x = y
    · -- the head itself: nothing is strictly before it, since it is `le` everything after it
      subst hxy
      have hnone : L.countP (fun z => decide (lt z x)) = 0 := by
        refine List.countP_eq_zero.mpr fun z hz hzx => ?_
        have hzx' := (hlt z (List.mem_cons_of_mem x hz) x List.mem_cons_self).mp (of_decide_eq_true hzx)
        exact hzx'.2 (hanti z (List.mem_cons_of_mem x hz) x List.mem_cons_self hzx'.1 (hy z hz))
      have hself : ¬ lt x x := fun h =>
        ((hlt x List.mem_cons_self x List.mem_cons_self).mp h).2 rfl
      cases k with
      | zero => simp
      | succ k => simp [hnone, hself]
    · -- a later element: the head is strictly before it, and one more of the first `k` is used
      have hxL : x ∈ L := (List.mem_cons.mp hx).resolve_left hxy
      have hyx : lt y x := (hlt y List.mem_cons_self x hx).mpr ⟨hy x hxL, Ne.symm hxy⟩
      cases k with
      | zero => simp
      | succ k =>
        rw [List.take_succ_cons, List.mem_cons, List.countP_cons, ih hL hlt' hanti' hxL k]
        simp [hxy, hyx]

end Sorted

/-! ## The seeding order on numbered cells -/

theorem rankBefore_eq_true_iff {a b : Float × Nat} :
    rankBefore a b = true ↔ totalKey b.1 < totalKey a.1 ∨ (totalKey a.1 = totalKey b.1 ∧ a.2 ≤ b.2) := by
  simp [rankBefore]

theorem rankBefore_trans (a b c : Float × Nat) (hab : rankBefore a b = true)
    (hbc : rankBefore b c = true) : rankBefore a c = true := by
  rw [rankBefore_eq_true_iff] at *
  omega

theorem rankBefore_total (a b : Float × Nat) : (rankBefore a b || rankBefore b a) = true := by
  rw [Bool.or_eq_true, rankBefore_eq_true_iff, rankBefore_eq_true_iff]
  omega

theorem eq_of_mem_zipIdx {values : List Float} {a b : Float × Nat} (ha : a ∈ values.zipIdx)
    (hb : b ∈ values.zipIdx) (h : a.2 = b.2) : a = b := by
  rw [List.mem_zipIdx_iff_getElem?] at ha hb
  rw [h, hb, Option.some.injEq] at ha
  exact Prod.ext ha.symm h

theorem pairwise_ranked (values : List Float) :
    (values.zipIdx.mergeSort rankBefore).Pairwise fun a b => rankBefore a b = true :=
  List.pairwise_mergeSort rankBefore_trans rankBefore_total _

theorem ranksBefore_iff {values : List Float} {a b : Float × Nat} (ha : a ∈ values.zipIdx)
    (hb : b ∈ values.zipIdx) : RanksBefore a b ↔ rankBefore a b = true ∧ a ≠ b := by
  rw [RanksBefore, rankBefore_eq_true_iff]
  constructor
  · rintro (h | ⟨hk, hi⟩)
    · exact ⟨.inl h, fun hab => by subst hab; omega⟩
    · exact ⟨.inr ⟨hk, Nat.le_of_lt hi⟩, fun hab => by subst hab; omega⟩
  · rintro ⟨h | ⟨hk, hi⟩, hne⟩
    · exact .inl h
    · -- equal keys and indices would make the cells equal
      refine .inr ⟨hk, Nat.lt_of_le_of_ne hi fun hidx => hne ?_⟩
      exact eq_of_mem_zipIdx ha hb hidx

/-- A cell is among the first `k` ranked exactly when fewer than `k` cells rank before it. -/
theorem mem_take_ranked_iff (values : List Float) {i : Nat} (hi : i < values.length) (k : Nat) :
    (values[i], i) ∈ (values.zipIdx.mergeSort rankBefore).take k ↔ rankOf values values[i] i < k := by
  have hperm := List.mergeSort_perm values.zipIdx rankBefore
  have hmem : (values[i], i) ∈ values.zipIdx := by
    simp [List.mem_zipIdx_iff_getElem?, hi]
  rw [mem_take_iff_countP_lt (pairwise_ranked values)
      (fun a ha b hb => ranksBefore_iff (hperm.mem_iff.mp ha) (hperm.mem_iff.mp hb))
      (fun a ha b hb hab hba => ?_) (hperm.mem_iff.mpr hmem) k,
    rankOf, hperm.countP_eq]
  rw [rankBefore_eq_true_iff] at hab hba
  exact eq_of_mem_zipIdx (hperm.mem_iff.mp ha) (hperm.mem_iff.mp hb) (by omega)

theorem mem_topIndices_iff (values : List Float) {i : Nat} (hi : i < values.length) (k : Nat) :
    i ∈ ((values.zipIdx.mergeSort rankBefore).take k).map Prod.snd ↔ rankOf values values[i] i < k := by
  rw [← mem_take_ranked_iff values hi k, List.mem_map]
  constructor
  · rintro ⟨⟨v, j⟩, hmem, rfl⟩
    have hz : (v, j) ∈ values.zipIdx :=
      (List.mergeSort_perm values.zipIdx rankBefore).mem_iff.mp (List.mem_of_mem_take hmem)
    have hv : values[j] = v := by
      rw [List.mem_zipIdx_iff_getElem?] at hz
      simpa [List.getElem?_eq_getElem hi] using hz
    rwa [hv]
  · exact fun h => ⟨_, h, rfl⟩

theorem topIndices_nodup (values : List Float) (k : Nat) :
    (((values.zipIdx.mergeSort rankBefore).take k).map Prod.snd).Nodup := by
  have hperm := (List.mergeSort_perm values.zipIdx rankBefore).map Prod.snd
  have hall : ((values.zipIdx.mergeSort rankBefore).map Prod.snd).Nodup := by
    rw [hperm.nodup_iff, List.zipIdx_map_snd]
    exact List.nodup_range'
  rw [List.map_take]
  exact hall.sublist (List.take_sublist _ _)

theorem topIndices_lt (values : List Float) (k : Nat) :
    ∀ i ∈ ((values.zipIdx.mergeSort rankBefore).take k).map Prod.snd, i < values.length := by
  intro i hi
  obtain ⟨p, hp, rfl⟩ := List.mem_map.mp hi
  have hz := (List.mergeSort_perm values.zipIdx rankBefore).mem_iff.mp (List.mem_of_mem_take hp)
  exact (List.mem_zipIdx' hz).1

theorem length_topIndices (values : List Float) (k : Nat) :
    (((values.zipIdx.mergeSort rankBefore).take k).map Prod.snd).length = min k values.length := by
  simp

/-! ## Setting the marks -/

theorem getElem?_foldl_setIfInBounds (top : List Nat) (marks : Array Bool) (i : Nat) :
    (top.foldl (fun (a : Array Bool) j => a.setIfInBounds j true) marks)[i]? =
      marks[i]?.map fun b => b || decide (i ∈ top) := by
  induction top generalizing marks with
  | nil => simp
  | cons j top ih =>
    rw [List.foldl_cons, ih, Array.getElem?_setIfInBounds]
    by_cases hji : j = i
    · subst hji
      by_cases hj : j < marks.size <;> simp [hj]
    · cases marks[i]? <;> simp [hji, Ne.symm hji]

theorem marks_toList (top : List Nat) (n : Nat) :
    (top.foldl (fun (a : Array Bool) j => a.setIfInBounds j true) (Array.replicate n false)).toList =
      (List.range n).map fun i => decide (i ∈ top) := by
  apply List.ext_getElem?
  intro i
  rw [Array.getElem?_toList, getElem?_foldl_setIfInBounds, List.getElem?_map,
    Array.getElem?_replicate]
  by_cases hi : i < n <;> simp [hi]

theorem count_marks {top : List Nat} {n : Nat} (hnodup : top.Nodup) (hlt : ∀ i ∈ top, i < n) :
    ((List.range n).map fun i => decide (i ∈ top)).count true = top.length := by
  have hperm : ((List.range n).filter fun i => decide (i ∈ top)).Perm top := by
    rw [List.perm_ext_iff_of_nodup (List.nodup_range.filter _) hnodup]
    intro i
    simpa using fun hi => hlt i hi
  rw [← hperm.length_eq, List.count_eq_countP, List.countP_map, List.countP_eq_length_filter]
  simp [Function.comp_def]

/-- Seeding refuses a fraction outside the open unit interval (a NaN included). Otherwise it
gives one mark per cell, `min k n` of them set, and marks a cell exactly when fewer than `k`
cells rank before it, `k` being `f · n` rounded half away from zero. -/
theorem seedFromFraction_marks_top_ranked (values : List Float) (f : Float) :
    (seedFromFraction values f = .error (.invalidSeedFraction f) ↔ ¬(f > 0 ∧ f < 1)) ∧
      (f > 0 ∧ f < 1 → ∃ seeds, seedFromFraction values f = .ok seeds ∧
        seeds.length = values.length ∧
        seeds.count true = min (roundHalfAway (f * Float.ofNat values.length)) values.length ∧
        ∀ i (hi : i < values.length), seeds[i]? =
          some (decide (rankOf values values[i] i < roundHalfAway (f * Float.ofNat values.length)))) := by
  by_cases hf : f > 0 ∧ f < 1
  · refine ⟨?_, fun _ => ?_⟩
    · simp [seedFromFraction, hf]
    · refine ⟨_, by rw [seedFromFraction, if_pos hf], ?_, ?_, ?_⟩
      · simp [marks_toList]
      · rw [marks_toList, count_marks (topIndices_nodup values _) (topIndices_lt values _),
          length_topIndices]
      · intro i hi
        rw [marks_toList, List.getElem?_map, List.getElem?_range hi, Option.map_some,
          Option.some.injEq, decide_eq_decide]
        exact mem_topIndices_iff values hi _
  · exact ⟨by simp [seedFromFraction, hf], fun h => absurd h hf⟩

end Phenotyping.Separation
