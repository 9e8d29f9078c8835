import Mathlib.Data.Finset.Card
import Phenotyping.FeatureCache
/-! # The feature cache as the record of its puts

A cache that puts have built up from the empty cache is determined by the values put, in
order: each key holds the first value put under it and nothing else is stored. A put finds
its key free exactly when no earlier put used the key; otherwise it reports that first value
beside its own and changes nothing. Loading a list of values is the same as putting them one
by one, and it reports one conflict for every value whose key came earlier.
-/
namespace Phenotyping

def FeatureValue.key (v : FeatureValue) : String × String := (v.feature, v.sample)

namespace FeatureCache
set_option autoImplicit false

def ofPuts (vs : List FeatureValue) : FeatureCache := vs.foldl (fun c v => (c.put v).2) {}

def firstPut (vs : List FeatureValue) (feature sample : String) : Option FeatureValue :=
  vs.find? fun v => v.feature = feature ∧ v.sample = sample

/-- The conflict a value meets when it is put after `done`: the first value of its key. -/
def conflictAfter (done : List FeatureValue) (v : FeatureValue) : Option Conflict :=
  (firstPut done v.feature v.sample).map fun e => ⟨e, v⟩

def conflictsAfter : List FeatureValue → List FeatureValue → List Conflict
  | _, [] => []
  | done, v :: vs => (conflictAfter done v).toList ++ conflictsAfter (done ++ [v]) vs

/-! ## One put -/

theorem put_of_get_some {c : FeatureCache} {v e : FeatureValue}
    (h : c.get v.feature v.sample = some e) : c.put v = (.alreadyComputed ⟨e, v⟩, c) := by
  simp [put, h]

theorem put_of_get_none {c : FeatureCache} {v : FeatureValue}
    (h : c.get v.feature v.sample = none) : c.put v = (.stored, ⟨c.entries ++ [v]⟩) := by
  simp [put, h]

theorem get_eq_none_iff (c : FeatureCache) (f s : String) :
    c.get f s = none ↔ (f, s) ∉ c.entries.map FeatureValue.key := by
  simp [get, FeatureValue.key, List.find?_eq_none]

theorem get_put (c : FeatureCache) (v : FeatureValue) (f s : String) :
    (c.put v).2.get f s =
      (c.get f s).or (if v.feature = f ∧ v.sample = s then some v else none) := by
  cases hv : c.get v.feature v.sample with
  | some e =>
    rw [put_of_get_some hv]
    by_cases hk : v.feature = f ∧ v.sample = s
    · obtain ⟨rfl, rfl⟩ := hk
      simp [hv]
    · simp [hk]
  | none =>
    rw [put_of_get_none hv]
    simp only [get, List.find?_append]
    by_cases hk : v.feature = f ∧ v.sample = s <;> simp [hk]

/-! ## A sequence of puts -/

theorem ofPuts_append_singleton (done : List FeatureValue) (v : FeatureValue) :
    ofPuts (done ++ [v]) = ((ofPuts done).put v).2 := by
  simp [ofPuts, List.foldl_append]

theorem firstPut_append_singleton (done : List FeatureValue) (v : FeatureValue) (f s : String) :
    firstPut (done ++ [v]) f s =
      (firstPut done f s).or (if v.feature = f ∧ v.sample = s then some v else none) := by
  by_cases hk : v.feature = f ∧ v.sample = s <;> simp [firstPut, List.find?_append, hk]

/-- The cache holds, under each key, the first value put under it. -/
theorem get_ofPuts (vs : List FeatureValue) (f s : String) :
    (ofPuts vs).get f s = firstPut vs f s := by
  induction vs using List.reverseRecOn with
  | nil => rfl
  | append_singleton vs v ih =>
    rw [ofPuts_append_singleton, get_put, ih, firstPut_append_singleton]

theorem put_ofPuts (done : List FeatureValue) (v : FeatureValue) :
    (ofPuts done).put v = match firstPut done v.feature v.sample with
      | some e => (.alreadyComputed ⟨e, v⟩, ofPuts done)
      | none => (.stored, ofPuts (done ++ [v])) := by
  cases hv : firstPut done v.feature v.sample with
  | some e =>
    rw [← get_ofPuts] at hv
    exact put_of_get_some hv
  | none =>
    rw [← get_ofPuts] at hv
    rw [ofPuts_append_singleton, put_of_get_none hv]

theorem keys_ofPuts (vs : List FeatureValue) :
    ((ofPuts vs).entries.map FeatureValue.key).Nodup ∧
      ∀ k, k ∈ (ofPuts vs).entries.map FeatureValue.key ↔ k ∈ vs.map FeatureValue.key := by
  induction vs using List.reverseRecOn with
  | nil => simp [ofPuts]
  | append_singleton vs v ih =>
    obtain ⟨hnodup, hmem⟩ := ih
    rw [ofPuts_append_singleton]
    cases hv : (ofPuts vs).get v.feature v.sample with
    | some e =>
      -- the key was already held, so neither the entries nor the key set change
      have hheld : v.key ∈ (ofPuts vs).entries.map FeatureValue.key := by
        have h := (get_eq_none_iff (ofPuts vs) v.feature v.sample).not
        simp only [hv, reduceCtorEq, not_false_eq_true, not_not, true_iff] at h
        exact h
      rw [put_of_get_some hv]
      refine ⟨hnodup, fun k => ?_⟩
      rw [hmem, List.map_append, List.mem_append, List.map_singleton, List.mem_singleton]
      constructor
      · exact Or.inl
      · rintro (hk | rfl)
        · exact hk
        · exact (hmem _).mp hheld
    | none =>
      have hfree := (get_eq_none_iff _ _ _).mp hv
      rw [put_of_get_none hv]
      simp only [List.map_append, List.map_singleton]
      refine ⟨List.nodup_append.mpr ⟨hnodup, List.nodup_singleton _, ?_⟩, fun k => ?_⟩
      · simp only [List.mem_singleton]
        rintro a ha b rfl rfl
        exact hfree ha
      · simp [hmem]

theorem len_ofPuts (vs : List FeatureValue) :
    (ofPuts vs).len = (vs.map FeatureValue.key).toFinset.card := by
  obtain ⟨hnodup, hmem⟩ := keys_ofPuts vs
  calc (ofPuts vs).len
      = ((ofPuts vs).entries.map FeatureValue.key).length := by simp [len]
    _ = ((ofPuts vs).entries.map FeatureValue.key).toFinset.card :=
        (List.toFinset_card_of_nodup hnodup).symm
    _ = (vs.map FeatureValue.key).toFinset.card := by
        congr 1
        ext k
        simp only [List.mem_toFinset, hmem]

/-! ## Loading values -/

theorem put_ofPuts_fst (done : List FeatureValue) (v : FeatureValue) :
    ((ofPuts done).put v).1 = match conflictAfter done v with
      | some k => .alreadyComputed k
      | none => .stored := by
  rw [put_ofPuts, conflictAfter]
  cases firstPut done v.feature v.sample <;> rfl

theorem ofValuesFrom_ofPuts (done vs : List FeatureValue) :
    ofValuesFrom (ofPuts done) vs = (ofPuts (done ++ vs), conflictsAfter done vs) := by
  induction vs generalizing done with
  | nil => simp [ofValuesFrom, conflictsAfter]
  | cons v vs ih =>
    have hrest := ih (done ++ [v])
    rw [ofPuts_append_singleton, List.append_assoc, List.singleton_append] at hrest
    simp only [ofValuesFrom, hrest, conflictsAfter, put_ofPuts_fst]
    cases conflictAfter done v <;> rfl

theorem len_ofPuts_add_conflicts (done vs : List FeatureValue) :
    (ofPuts (done ++ vs)).len + (conflictsAfter done vs).length = (ofPuts done).len + vs.length := by
  induction vs generalizing done with
  | nil => simp [conflictsAfter]
  | cons v vs ih =>
    have hone : (ofPuts (done ++ [v])).len + (conflictAfter done v).toList.length =
        (ofPuts done).len + 1 := by
      cases hv : firstPut done v.feature v.sample with
      | some e =>
        have hsame : ofPuts (done ++ [v]) = ofPuts done := by
          rw [ofPuts_append_singleton, put_ofPuts, hv]
        simp [conflictAfter, hv, hsame]
      | none =>
        have hfree : (ofPuts done).get v.feature v.sample = none := by rw [get_ofPuts, hv]
        rw [ofPuts_append_singleton, put_of_get_none hfree]
        simp [conflictAfter, hv, len]
    have hrest := ih (done ++ [v])
    rw [List.append_assoc, List.singleton_append] at hrest
    simp only [conflictsAfter, List.length_append, List.length_cons]
    omega

/-- The feature cache stores at most one value per key, the first one put. Every put after
a history `done` stores its value when no earlier put used its key and otherwise reports the
first value beside its own and leaves the cache as it was; lookups give the first value put;
the cache holds one entry per distinct key; and loading a list of values is putting them in
order, reporting one conflict per repeated key in input order. -/
theorem puts_keep_first_value :
    (∀ (done : List FeatureValue) (v : FeatureValue),
      (ofPuts done).put v = match firstPut done v.feature v.sample with
        | some e => (.alreadyComputed ⟨e, v⟩, ofPuts done)
        | none => (.stored, ofPuts (done ++ [v]))) ∧
    (∀ (vs : List FeatureValue) (f s : String), (ofPuts vs).get f s = firstPut vs f s) ∧
    (∀ vs : List FeatureValue, (ofPuts vs).len = (vs.map FeatureValue.key).toFinset.card) ∧
    (∀ vs : List FeatureValue, ofValues vs = (ofPuts vs, conflictsAfter [] vs) ∧
      (ofValues vs).1.len + (ofValues vs).2.length = vs.length) := by
  refine ⟨put_ofPuts, get_ofPuts, len_ofPuts, fun vs => ?_⟩
  have hload : ofValues vs = (ofPuts vs, conflictsAfter [] vs) := ofValuesFrom_ofPuts [] vs
  refine ⟨hload, ?_⟩
  have hcount := len_ofPuts_add_conflicts [] vs
  rw [List.nil_append] at hcount
  rw [hload]
  simpa [ofPuts, len] using hcount

end FeatureCache
end Phenotyping
