import Mathlib.Logic.Equiv.Defs
import Phenotyping.Proofs.ComputeMeaning
import Phenotyping.Proofs.CacheHistory
/-! # Jobs computed in any order

Computing a feature reads the threshold store and the sample, and touches the cache only to
file its count, with one put. Jobs run one after another therefore share nothing but the
cache: each job's count, cell total or error is the same in every order, and the cache that
results is decided by the puts alone. A key the cache held before keeps its value; any other
key ends up holding the count of the first job, in the chosen order, that succeeded on it.
That job alone has its count stored, and every other job on the key is told the count that is
kept.
-/
namespace Phenotyping
set_option autoImplicit false

def FeatureOutcome.result (o : FeatureOutcome) : FeatureValue × Nat := (o.value, o.totalCells)

namespace FeatureCache

theorem get_foldl_put (c : FeatureCache) (vs : List FeatureValue) (f s : String) :
    (vs.foldl (fun c v => (c.put v).2) c).get f s = (c.get f s).or (firstPut vs f s) := by
  induction vs using List.reverseRecOn with
  | nil => simp [firstPut]
  | append_singleton vs v ih =>
    rw [List.foldl_append, List.foldl_cons, List.foldl_nil, get_put, ih,
      firstPut_append_singleton, Option.or_assoc]

theorem put_fst (c : FeatureCache) (v : FeatureValue) :
    (c.put v).1 = match c.get v.feature v.sample with
      | some e => .alreadyComputed ⟨e, v⟩
      | none => .stored := by
  cases h : c.get v.feature v.sample with
  | some e => rw [put_of_get_some h]
  | none => rw [put_of_get_none h]

theorem firstPut_append_of_some {done later : List FeatureValue} {f s : String} {e : FeatureValue}
    (h : firstPut done f s = some e) : firstPut (done ++ later) f s = some e := by
  simp only [firstPut, List.find?_append] at h ⊢
  rw [h, Option.some_or]

end FeatureCache

namespace Pipeline

variable (p : Pipeline) (store : ThresholdStore)

/-- What computing a request gives before the cache is consulted: the count filed under the
request's feature with the sample's number of cells, or the error. -/
def evaluate (r : FeatureRequest) (table : IntensityTable) :
    Except PipelineError (FeatureValue × Nat) :=
  match p.compileFor table.sample r.featureId r.criterion with
  | .error e => .error e
  | .ok cc => match p.encodeSample store table with
    | .error e => .error (e.withFeature r.featureId)
    | .ok a => match cc.count p.table a with
      | .error e => .error (.make a.sample (some r.featureId) .matching (.matching e))
      | .ok n => .ok (⟨r.featureId, a.sample, n⟩, a.len)

theorem compute_eq_evaluate_put (cache : FeatureCache) (r : FeatureRequest) (table : IntensityTable) :
    p.compute store cache r table = match p.evaluate store r table with
      | .error e => (cache, .error e)
      | .ok (v, n) => ((cache.put v).2, .ok ⟨v, n, (cache.put v).1⟩) := by
  unfold compute evaluate
  dsimp only
  cases p.compileFor table.sample r.featureId r.criterion with
  | error e => rfl
  | ok cc =>
    cases p.encodeSample store table with
    | error e => rfl
    | ok a =>
      simp only [countAndStore, Matcher.count_eq_count, Matcher.make_table]
      cases cc.count p.table a with
      | error e => rfl
      | ok n => rfl

def successes (js : List (FeatureRequest × IntensityTable)) : List FeatureValue :=
  js.filterMap fun j => (p.evaluate store j.1 j.2).toOption.map Prod.fst

theorem successes_cons (j : FeatureRequest × IntensityTable) (js : List (FeatureRequest × IntensityTable)) :
    p.successes store (j :: js) =
      ((p.evaluate store j.1 j.2).toOption.map Prod.fst).toList ++ p.successes store js := by
  simp only [successes, List.filterMap_cons]
  cases (p.evaluate store j.1 j.2).toOption.map Prod.fst <;> rfl

/-! ## Jobs one after another -/

theorem computeEach_results (cache : FeatureCache) (js : List (FeatureRequest × IntensityTable)) :
    (p.computeEach store cache js).2.map (Except.map FeatureOutcome.result) =
      js.map fun j => p.evaluate store j.1 j.2 := by
  induction js generalizing cache with
  | nil => rfl
  | cons j js ih =>
    simp only [computeEach, compute_eq_evaluate_put, List.map_cons]
    cases p.evaluate store j.1 j.2 with
    | error e => simp [ih, Except.map]
    | ok vn => simp [ih, Except.map, FeatureOutcome.result]

theorem computeEach_cache (cache : FeatureCache) (js : List (FeatureRequest × IntensityTable)) :
    (p.computeEach store cache js).1 = (p.successes store js).foldl (fun c v => (c.put v).2) cache := by
  induction js generalizing cache with
  | nil => rfl
  | cons j js ih =>
    simp only [computeEach, compute_eq_evaluate_put, successes_cons]
    cases p.evaluate store j.1 j.2 with
    | error e => simp [ih, Except.toOption]
    | ok vn => simp [ih, Except.toOption]

theorem computeEach_write (cache : FeatureCache) (js : List (FeatureRequest × IntensityTable))
    (i : Nat) (o : FeatureOutcome) (h : (p.computeEach store cache js).2[i]? = some (.ok o)) :
    o.write = (((p.successes store (js.take i)).foldl (fun c v => (c.put v).2) cache).put o.value).1 := by
  induction js generalizing cache i with
  | nil => simp [computeEach] at h
  | cons j js ih =>
    simp only [computeEach, compute_eq_evaluate_put] at h
    cases hj : p.evaluate store j.1 j.2 with
    | error e =>
      rw [hj] at h
      cases i with
      | zero => simp at h
      | succ i =>
        have hrest := ih cache i (by simpa using h)
        simpa [successes_cons, hj, Except.toOption] using hrest
    | ok vn =>
      rw [hj] at h
      cases i with
      | zero =>
        simp only [List.getElem?_cons_zero, Option.some.injEq, Except.ok.injEq] at h
        subst h
        simp [successes]
      | succ i =>
        have hrest := ih _ i (by simpa using h)
        simpa [successes_cons, hj, Except.toOption] using hrest

/-! ## Any order of the jobs -/

/-- The jobs in the order a permutation gives: position `i` runs job `σ i`. -/
def reorder (jobs : List (FeatureRequest × IntensityTable)) (σ : Equiv.Perm (Fin jobs.length)) :
    List (FeatureRequest × IntensityTable) :=
  List.ofFn fun i => jobs.get (σ i)

theorem mem_reorder {jobs : List (FeatureRequest × IntensityTable)} {σ : Equiv.Perm (Fin jobs.length)}
    {j : FeatureRequest × IntensityTable} : j ∈ reorder jobs σ ↔ j ∈ jobs := by
  rw [reorder, List.mem_ofFn, List.mem_iff_get]
  constructor
  · rintro ⟨i, rfl⟩
    exact ⟨σ i, rfl⟩
  · rintro ⟨k, rfl⟩
    exact ⟨σ.symm k, by rw [Equiv.apply_symm_apply]⟩

theorem mem_successes {js : List (FeatureRequest × IntensityTable)} {v : FeatureValue} :
    v ∈ p.successes store js ↔ ∃ j ∈ js, ∃ n, p.evaluate store j.1 j.2 = .ok (v, n) := by
  simp only [successes, List.mem_filterMap, Option.map_eq_some_iff]
  constructor
  · rintro ⟨j, hj, ⟨v', n⟩, hok, rfl⟩
    refine ⟨j, hj, n, ?_⟩
    cases he : p.evaluate store j.1 j.2 with
    | error e => simp [he, Except.toOption] at hok
    | ok vn => simp_all [Except.toOption]
  · rintro ⟨j, hj, n, he⟩
    exact ⟨j, hj, (v, n), by simp [he, Except.toOption], rfl⟩

theorem firstPut_isSome_iff (vs : List FeatureValue) (f s : String) :
    (FeatureCache.firstPut vs f s).isSome ↔ ∃ v ∈ vs, v.feature = f ∧ v.sample = s := by
  simp [FeatureCache.firstPut, List.find?_isSome]

/-- After the jobs, a key keeps the value it held, and a key it did not hold gets the count of
the first job that succeeded on it. -/
theorem get_computeEach (cache : FeatureCache) (js : List (FeatureRequest × IntensityTable)) (f s : String) :
    (p.computeEach store cache js).1.get f s =
      (cache.get f s).or (FeatureCache.firstPut (p.successes store js) f s) := by
  rw [computeEach_cache, FeatureCache.get_foldl_put]

theorem isSome_get_computeEach (cache : FeatureCache) (js : List (FeatureRequest × IntensityTable))
    (f s : String) :
    ((p.computeEach store cache js).1.get f s).isSome ↔ (cache.get f s).isSome ∨
      ∃ j ∈ js, ∃ v n, p.evaluate store j.1 j.2 = .ok (v, n) ∧ v.feature = f ∧ v.sample = s := by
  simp only [get_computeEach, Option.isSome_or, Bool.or_eq_true, firstPut_isSome_iff, mem_successes]
  constructor
  · rintro (hc | ⟨v, ⟨j, hj, n, he⟩, rfl, rfl⟩)
    · exact Or.inl hc
    · exact Or.inr ⟨j, hj, v, n, he, rfl, rfl⟩
  · rintro (hc | ⟨j, hj, v, n, he, rfl, rfl⟩)
    · exact Or.inl hc
    · exact Or.inr ⟨v, ⟨j, hj, n, he⟩, rfl, rfl⟩

theorem write_computeEach (cache : FeatureCache) (js : List (FeatureRequest × IntensityTable))
    (i : Nat) (o : FeatureOutcome) (ho : (p.computeEach store cache js).2[i]? = some (.ok o)) :
    (o.write = .stored ↔ cache.get o.value.feature o.value.sample = none ∧
        FeatureCache.firstPut (p.successes store (js.take i)) o.value.feature o.value.sample = none) ∧
      (o.write ≠ .stored → ∃ e, (p.computeEach store cache js).1.get o.value.feature o.value.sample = some e ∧
        o.write = .alreadyComputed ⟨e, o.value⟩) := by
  have hwrite := computeEach_write p store cache js i o ho
  rw [FeatureCache.put_fst, FeatureCache.get_foldl_put] at hwrite
  -- the successes before position `i` are a prefix of all of them
  have hprefix : p.successes store js = p.successes store (js.take i) ++ p.successes store (js.drop i) := by
    rw [successes, successes, successes, ← List.filterMap_append, List.take_append_drop]
  cases hprev : (cache.get o.value.feature o.value.sample).or
      (FeatureCache.firstPut (p.successes store (js.take i)) o.value.feature o.value.sample) with
  | none =>
    rw [hprev] at hwrite
    rw [Option.or_eq_none_iff] at hprev
    exact ⟨⟨fun _ => hprev, fun _ => hwrite⟩, fun hne => absurd hwrite hne⟩
  | some e =>
    rw [hprev] at hwrite
    refine ⟨⟨fun hs => (by rw [hwrite] at hs; cases hs), fun hfree => ?_⟩, fun _ => ⟨e, ?_, hwrite⟩⟩
    · rw [hfree.1, hfree.2] at hprev
      cases hprev
    · rw [get_computeEach, hprefix]
      cases hc : cache.get o.value.feature o.value.sample with
      | some e' => rw [hc] at hprev; simpa using hprev
      | none =>
        rw [hc, Option.none_or] at hprev
        rw [Option.none_or]
        exact FeatureCache.firstPut_append_of_some hprev

/-- Jobs commute. Run in the order of any permutation `σ`, from the same threshold store and
cache: every job gets the count, cell total or error it gets in any other order; the cache
ends with the keys it held and those of the successful jobs, whatever the order; a key keeps
the value it held, and a key it did not hold gets the count of the first successful job on it
in this order. A job's count is stored exactly when its key was free and no earlier job in
this order succeeded on it, and otherwise the job is told the value the key holds. -/
theorem computeMany_reorder (cache : FeatureCache) (jobs : List (FeatureRequest × IntensityTable))
    (σ : Equiv.Perm (Fin jobs.length)) :
    (p.computeMany store cache (reorder jobs σ)).2.map (Except.map FeatureOutcome.result) =
        (reorder jobs σ).map (fun j => p.evaluate store j.1 j.2) ∧
      (∀ f s, ((p.computeMany store cache (reorder jobs σ)).1.get f s).isSome ↔
        (cache.get f s).isSome ∨
          ∃ j ∈ jobs, ∃ v n, p.evaluate store j.1 j.2 = .ok (v, n) ∧ v.feature = f ∧ v.sample = s) ∧
      (∀ f s, (p.computeMany store cache (reorder jobs σ)).1.get f s =
        (cache.get f s).or (FeatureCache.firstPut (p.successes store (reorder jobs σ)) f s)) ∧
      (∀ i o, (p.computeMany store cache (reorder jobs σ)).2[i]? = some (.ok o) →
        (o.write = .stored ↔ cache.get o.value.feature o.value.sample = none ∧
          FeatureCache.firstPut (p.successes store ((reorder jobs σ).take i))
            o.value.feature o.value.sample = none) ∧
        (o.write ≠ .stored → ∃ e,
          (p.computeMany store cache (reorder jobs σ)).1.get o.value.feature o.value.sample = some e ∧
            o.write = .alreadyComputed ⟨e, o.value⟩)) := by
  rw [computeMany_eq_computeEach]
  refine ⟨computeEach_results p store cache _, fun f s => ?_, get_computeEach p store cache _,
    write_computeEach p store cache _⟩
  -- the successful jobs of any order are the successful jobs
  rw [isSome_get_computeEach]
  simp only [mem_reorder]

/-- The first successful job on a key is not stored when the cache held the key before: the
only job on it is told the count already held, and that count stays. -/
theorem computeMany_keeps_value_held_before :
    let p : Pipeline := ⟨⟨1, ["A"], by decide⟩, 4096, {}⟩
    let store := ((ThresholdStore.empty 1e-6).record "S" "A" 0.5 "test").1
    let cache : FeatureCache := ⟨[⟨"f", "S", 7⟩]⟩
    let job : FeatureRequest × IntensityTable := (⟨some "f", ⟨["A"], []⟩⟩, ⟨"S", ["A"], [[1]]⟩)
    p.successes store [job] = [⟨"f", "S", 1⟩] ∧
      (p.computeMany store cache [job]).2.map (fun o => o.toOption.map (·.write)) =
        [some (.alreadyComputed ⟨⟨"f", "S", 7⟩, ⟨"f", "S", 1⟩⟩)] ∧
      (p.computeMany store cache [job]).1.get "f" "S" = some ⟨"f", "S", 7⟩ := by
  intro p store cache job
  -- the matcher counts in chunks; computing is evaluating and putting, which runs
  simp only [computeMany, List.foldl, compute_eq_evaluate_put]
  decide

end Pipeline
end Phenotyping
