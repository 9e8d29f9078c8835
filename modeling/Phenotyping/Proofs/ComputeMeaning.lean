import Phenotyping.Pipeline
import Phenotyping.Proofs.Counting
import Phenotyping.Proofs.Gating
/-! # What computing a feature means

Computing a feature goes through masks: the criterion is compiled to two masks, the sample's
thresholds are frozen and every cell is encoded, the masks are counted and the count is put in
the cache. Stated without masks, the outcome is decided in this order: a channel required on
both sides, then a channel outside the table (the first of the positive side, then of the
negative side, which for a criterion built by `Criterion.ofLists` is the least in code point
order), then the first channel of the table, in bit order, without a threshold for the
sample, then the first without a column. Otherwise the count is the number of cells positive
for every positive channel and for no negative one, and it is offered to the cache. Every
channel of the table needs a threshold and a column, also those the criterion does not name.
-/
namespace Phenotyping
set_option autoImplicit false

/-- Whether a cell meets a criterion under the sample's current thresholds: positive for
every positive channel and for no negative one. -/
def Criterion.meets (crit : Criterion) (table : IntensityTable) (store : ThresholdStore)
    (row : List Float) : Bool :=
  crit.positive.all (table.positiveFor store row) &&
    crit.negative.all fun c => !table.positiveFor store row c

theorem exists_eq_some_of_find?_eq_none {α β : Type} {f : α → Option β} {l : List α}
    (h : l.find? (fun a => f a = none) = none) {a : α} (ha : a ∈ l) : ∃ b, f a = some b := by
  have hne := List.find?_eq_none.mp h a ha
  exact Option.ne_none_iff_exists'.mp (by simpa using hne)

namespace Pipeline

/-- What computing a request must give, stated without masks. -/
def expectedOutcome (p : Pipeline) (store : ThresholdStore) (cache : FeatureCache)
    (r : FeatureRequest) (table : IntensityTable) :
    FeatureCache × Except PipelineError FeatureOutcome :=
  let sample := table.sample
  let feature := r.featureId
  let crit := r.criterion
  if ∃ c ∈ crit.positive, c ∈ crit.negative then
    (cache, .error (.make sample (some feature) .matching
      (.matching (.contradictoryCriterion crit.overlap))))
  else match (crit.positive ++ crit.negative).find? (fun c => p.table.bitOf c = none) with
  | some c => (cache, .error (.make sample (some feature) .matching (.matching (.unknownChannel c))))
  | none => match p.table.layout.find? (fun c => store.get sample c = none) with
    | some c => (cache, .error (.make sample (some feature) .thresholding
        (.threshold (.missingThreshold sample c))))
    | none => match p.table.layout.find? (fun c => table.columnIndex c = none) with
      | some c => (cache, .error (.make sample (some feature) .encoding
          (.encoding (.missingColumn sample c))))
      | none =>
        let v : FeatureValue := ⟨feature, sample, table.rows.countP (crit.meets table store)⟩
        ((cache.put v).2, .ok ⟨v, table.numCells, (cache.put v).1⟩)

variable (p : Pipeline) (store : ThresholdStore) (table : IntensityTable)

theorem compileFor_of_ok {sample feature : String} {crit : Criterion} {cc : CompiledCriterion}
    (h : crit.compile p.table = .ok cc) : p.compileFor sample feature crit = .ok cc := by
  simp [compileFor, h, Except.mapError]

theorem compileFor_of_error {sample feature : String} {crit : Criterion} {e : MatchError}
    (h : crit.compile p.table = .error e) :
    p.compileFor sample feature crit = .error (.make sample (some feature) .matching (.matching e)) := by
  simp [compileFor, h, Except.mapError]

theorem withFeature_make (sample : String) (stage : Stage) (source : StageError) (f : String) :
    (PipelineError.make sample none stage source).withFeature f =
      PipelineError.make sample (some f) stage source := rfl

theorem encodeSample_of_missing_threshold {c : String}
    (h : p.table.layout.find? (fun c => store.get table.sample c = none) = some c) :
    p.encodeSample store table =
      .error (.make table.sample none .thresholding (.threshold (.missingThreshold table.sample c))) := by
  simp [encodeSample, ThresholdStore.snapshot_of_find?_some h]

theorem snapshot_fits (hthr : p.table.layout.find? (fun c => store.get table.sample c = none) = none) :
    ∃ snap, store.snapshot table.sample p.table = .ok snap ∧ CellMasks.Fits p.table table snap ∧
      ∀ (b : Nat) c, p.table.layout[b]? = some c →
        ∃ e, store.get table.sample c = some e ∧ snap.values.getD b 0 = e.value := by
  obtain ⟨snap, hsnap, hs, hv, hc, hvals⟩ := ThresholdStore.snapshot_of_find?_none hthr
  have hget : ∀ (b : Nat) c, p.table.layout[b]? = some c →
      ∃ e, store.get table.sample c = some e ∧ snap.values[b]? = some e.value := by
    intro b c hb
    obtain ⟨e, he⟩ := exists_eq_some_of_find?_eq_none hthr (List.mem_of_getElem? hb)
    exact ⟨e, he, by simp [hvals, hb, he]⟩
  refine ⟨snap, hsnap, ⟨hs, hv, hc, fun b hb => ?_⟩, fun b c hb => ?_⟩
  · obtain ⟨e, -, he⟩ := hget b p.table.layout[b] (List.getElem?_eq_getElem hb)
    simp [he]
  · obtain ⟨e, he, hval⟩ := hget b c hb
    exact ⟨e, he, by simp [List.getD_eq_getElem?_getD, hval]⟩

theorem encodeSample_of_missing_column {c : String}
    (hthr : p.table.layout.find? (fun c => store.get table.sample c = none) = none)
    (hcol : p.table.layout.find? (fun c => table.columnIndex c = none) = some c) :
    p.encodeSample store table =
      .error (.make table.sample none .encoding (.encoding (.missingColumn table.sample c))) := by
  obtain ⟨snap, hsnap, hfits, -⟩ := snapshot_fits p store table hthr
  simp [encodeSample, hsnap, CellMasks.encode_of_find?_some hfits hcol]

theorem encodeSample_of_complete (hthr : p.table.layout.find? (fun c => store.get table.sample c = none) = none)
    (hcol : p.table.layout.find? (fun c => table.columnIndex c = none) = none) :
    ∃ a, p.encodeSample store table = .ok a ∧ a.sample = table.sample ∧
      a.tableVersion = p.table.version ∧ a.channels = p.table.layout ∧
      ∃ gate : List Float → Mask, a.masks = table.rows.map gate ∧
        ∀ row b c, p.table.layout[b]? = some c → (gate row).test b = table.positiveFor store row c := by
  obtain ⟨snap, hsnap, hfits, hthreshold⟩ := snapshot_fits p store table hthr
  let gate := CellMasks.gateCell (p.table.bits.map (CellMasks.bitGate table snap))
  refine ⟨⟨table.sample, p.table.version, p.table.layout, snap.generations, table.rows.map gate⟩,
    by simp [encodeSample, hsnap, CellMasks.encode_of_find?_none hfits hcol, gate], rfl, rfl, rfl,
    gate, rfl, fun row b c hb => ?_⟩
  rw [CellMasks.test_gateCell_bits row hb]
  -- the channel at position `b` has a column (all do) and its threshold is the bit's
  obtain ⟨e, he, hval⟩ := hthreshold b c hb
  obtain ⟨j, hj⟩ := exists_eq_some_of_find?_eq_none hcol (List.mem_of_getElem? hb)
  rw [hval, hj]
  simp [IntensityTable.positiveFor, hj, he]

theorem admits_gate {crit : Criterion} {cc : CompiledCriterion}
    (hknown : (crit.positive ++ crit.negative).find? (fun c => p.table.bitOf c = none) = none)
    (hadmits : ∀ m, cc.admits m = true ↔
      (∀ c ∈ crit.positive, ∀ b, p.table.bitOf c = some b → m.test b = true) ∧
        (∀ c ∈ crit.negative, ∀ b, p.table.bitOf c = some b → m.test b = false))
    {gate : List Float → Mask}
    (hgate : ∀ row b c, p.table.layout[b]? = some c → (gate row).test b = table.positiveFor store row c)
    (row : List Float) :
    cc.admits (gate row) = crit.meets table store row := by
  -- every channel of the criterion has a bit, whose mask bit is the channel's gate
  have hbit : ∀ c ∈ crit.positive ++ crit.negative, ∃ b, p.table.bitOf c = some b :=
    fun c hc => exists_eq_some_of_find?_eq_none hknown hc
  have htest : ∀ {c b}, p.table.bitOf c = some b → (gate row).test b = table.positiveFor store row c :=
    fun hb => hgate row _ _ (ChannelTable.getElem?_of_bitOf hb)
  rw [Bool.eq_iff_iff, hadmits, Criterion.meets, Bool.and_eq_true, List.all_eq_true, List.all_eq_true]
  apply and_congr
  · constructor
    · intro h c hc
      obtain ⟨b, hb⟩ := hbit c (List.mem_append_left _ hc)
      rw [← htest hb]
      exact h c hc b hb
    · intro h c hc b hb
      rw [htest hb]
      exact h c hc
  · constructor
    · intro h c hc
      obtain ⟨b, hb⟩ := hbit c (List.mem_append_right _ hc)
      rw [← htest hb, h c hc b hb]
      rfl
    · intro h c hc b hb
      rw [htest hb]
      simpa using h c hc

/-- Computing a feature gives what `expectedOutcome`
states: the errors in their order of precedence, each naming its stage, the sample, the
feature and the channel, and otherwise the count of the cells that meet the criterion under
the sample's current thresholds, with the cache's answer to that count. -/
theorem compute_eq_expectedOutcome (cache : FeatureCache) (r : FeatureRequest) :
    p.compute store cache r table = p.expectedOutcome store cache r table := by
  unfold expectedOutcome
  by_cases hover : ∃ c ∈ r.criterion.positive, c ∈ r.criterion.negative
  · simp [compute, compileFor_of_error p (Criterion.compile_of_overlap hover), hover]
  rw [if_neg hover]
  cases hunknown : (r.criterion.positive ++ r.criterion.negative).find?
      (fun c => p.table.bitOf c = none) with
  | some c =>
    simp [compute, compileFor_of_error p (Criterion.compile_of_unknown hover hunknown)]
  | none =>
    obtain ⟨cc, hcc, hver, hch, hadmits⟩ := Criterion.compile_of_known hover hunknown
    have hcompile : p.compileFor table.sample r.featureId r.criterion = .ok cc :=
      compileFor_of_ok p hcc
    cases hthr : p.table.layout.find? (fun c => store.get table.sample c = none) with
    | some c =>
      simp [compute, hcompile, encodeSample_of_missing_threshold p store table hthr, withFeature_make]
    | none =>
      cases hcol : p.table.layout.find? (fun c => table.columnIndex c = none) with
      | some c =>
        simp [compute, hcompile, encodeSample_of_missing_column p store table hthr hcol,
          withFeature_make]
      | none =>
        obtain ⟨a, ha, hs, hv, hc, gate, hmasks, hgate⟩ :=
          encodeSample_of_complete p store table hthr hcol
        have hcount : ((table.rows.map gate).filter cc.admits).length =
            table.rows.countP (r.criterion.meets table store) := by
          rw [← List.countP_eq_length_filter, List.countP_map]
          congr 1
          funext row
          exact admits_gate p store table hunknown hadmits hgate row
        simp [compute, hcompile, ha, countAndStore, Matcher.count_eq_count,
          CompiledCriterion.count_of_stamps hver hch hv hc,
          hcount, hs, CellMasks.len, hmasks, IntensityTable.numCells]

/-- The two-channel pipeline of the examples, with both thresholds recorded, computing the
cells positive for CD15. -/
theorem compute_eq_expectedOutcome_cd15 :
    let p : Pipeline := ⟨⟨1, ["CD3", "CD15"], by decide⟩, 4096, {}⟩
    let store := ((ThresholdStore.empty 1e-6).record "WCM1" "CD3" 5 "test").1.record
      "WCM1" "CD15" 30 "test" |>.1
    let table : IntensityTable := ⟨"WCM1", ["CD3", "CD15"], [[1, 31], [9, 30], [9, 2], [1, 1]]⟩
    let r : FeatureRequest := ⟨none, ⟨["CD15"], []⟩⟩
    p.compute store {} r table = p.expectedOutcome store {} r table := by
  intro p store table r
  exact compute_eq_expectedOutcome p store table {} r

/-! ## Several requests on one sample -/

def computeEach (cache : FeatureCache) :
    List (FeatureRequest × IntensityTable) → FeatureCache × List (Except PipelineError FeatureOutcome)
  | [] => (cache, [])
  | j :: js =>
    let (cache', o) := p.compute store cache j.1 j.2
    let (cache'', os) := computeEach cache' js
    (cache'', o :: os)

theorem foldl_compute (js : List (FeatureRequest × IntensityTable)) (cache : FeatureCache)
    (out : List (Except PipelineError FeatureOutcome)) :
    js.foldl (fun (acc : FeatureCache × List (Except PipelineError FeatureOutcome)) j =>
        let (cache, o) := p.compute store acc.1 j.1 j.2
        (cache, acc.2 ++ [o])) (cache, out) =
      ((p.computeEach store cache js).1, out ++ (p.computeEach store cache js).2) := by
  induction js generalizing cache out with
  | nil => simp [computeEach]
  | cons j js ih => simp [computeEach, ih]

theorem computeMany_eq_computeEach (cache : FeatureCache)
    (js : List (FeatureRequest × IntensityTable)) :
    p.computeMany store cache js = p.computeEach store cache js := by
  unfold computeMany
  simpa using foldl_compute p store js cache []

theorem sample_of_encodeSample {a : CellMasks} (ha : p.encodeSample store table = .ok a) :
    a.sample = table.sample := by
  unfold encodeSample at ha
  cases hsnap : store.snapshot table.sample p.table with
  | error e => simp [hsnap] at ha
  | ok snap =>
    cases he : CellMasks.encode p.table table snap with
    | error e => simp [hsnap, he] at ha
    | ok a' =>
      simp only [hsnap, he, Except.ok.injEq] at ha
      rw [← ha]
      exact CellMasks.sample_of_encode he

theorem foldl_computeAll (a : CellMasks) (ha : p.encodeSample store table = .ok a)
    (rs : List FeatureRequest) (cache : FeatureCache) (out : List (Except PipelineError FeatureOutcome)) :
    rs.foldl (fun (acc : FeatureCache × List (Except PipelineError FeatureOutcome)) r =>
        let feature := r.featureId
        match p.compileFor a.sample feature r.criterion with
        | .error e => (acc.1, acc.2 ++ [.error e])
        | .ok cc =>
          let (cache, o) := p.countAndStore acc.1 feature cc a
          (cache, acc.2 ++ [o])) (cache, out) =
      ((p.computeEach store cache (rs.map (·, table))).1,
        out ++ (p.computeEach store cache (rs.map (·, table))).2) := by
  have hs := sample_of_encodeSample p store table ha
  induction rs generalizing cache out with
  | nil => simp [computeEach]
  | cons r rs ih =>
    simp only [List.foldl_cons, List.map_cons, computeEach, compute, ha, ← hs]
    cases p.compileFor a.sample r.featureId r.criterion with
    | error e => simp [ih]
    | ok cc => simp [ih]

theorem computeAll_of_encoded {a : CellMasks} (ha : p.encodeSample store table = .ok a)
    (cache : FeatureCache) (rs : List FeatureRequest) :
    p.computeAll store cache rs table = p.computeEach store cache (rs.map (·, table)) := by
  unfold computeAll
  rw [ha]
  exact foldl_computeAll p store table a ha rs cache []

theorem computeEach_of_encode_error {e : PipelineError} (he : p.encodeSample store table = .error e)
    (cache : FeatureCache) (rs : List FeatureRequest) :
    p.computeEach store cache (rs.map (·, table)) =
      (cache, rs.map fun r => match p.compileFor table.sample r.featureId r.criterion with
        | .error e' => .error e'
        | .ok _ => .error (e.withFeature r.featureId)) := by
  induction rs with
  | nil => rfl
  | cons r rs ih =>
    simp only [List.map_cons, computeEach, compute, he]
    cases p.compileFor table.sample r.featureId r.criterion with
    | error e' => simp [ih]
    | ok cc => simp [ih]

/-- Computing several requests on one sample leaves the same cache as computing them one by
one in order, and gives the same results whenever the sample encodes or every request's
criterion compiles against the table. When the sample does not encode, computing them
together gives every request the encoding error under its feature, while computing them one
by one reports a criterion that does not compile first. -/
theorem computeAll_agrees_when_encoded_or_compiled (cache : FeatureCache) (rs : List FeatureRequest) :
    (p.computeAll store cache rs table).1 = (p.computeMany store cache (rs.map (·, table))).1 ∧
      (((∃ a, p.encodeSample store table = .ok a) ∨
          ∀ r ∈ rs, ∃ cc, r.criterion.compile p.table = .ok cc) →
        p.computeAll store cache rs table = p.computeMany store cache (rs.map (·, table))) ∧
      ∀ e, p.encodeSample store table = .error e →
        p.computeAll store cache rs table = (cache, rs.map fun r => .error (e.withFeature r.featureId)) ∧
        p.computeMany store cache (rs.map (·, table)) =
          (cache, rs.map fun r => match p.compileFor table.sample r.featureId r.criterion with
            | .error e' => .error e'
            | .ok _ => .error (e.withFeature r.featureId)) := by
  rw [computeMany_eq_computeEach]
  cases he : p.encodeSample store table with
  | ok a =>
    rw [computeAll_of_encoded p store table he]
    exact ⟨rfl, fun _ => rfl, fun e he' => by cases he'⟩
  | error e =>
    have hall : p.computeAll store cache rs table =
        (cache, rs.map fun r => .error (e.withFeature r.featureId)) := by
      simp [computeAll, he]
    rw [hall, computeEach_of_encode_error p store table he]
    refine ⟨rfl, ?_, fun e' he' => ?_⟩
    · rintro (⟨a, ha⟩ | hcompiles)
      · cases ha
      · -- every criterion compiles, so each request reaches the encoding error
        congr 1
        apply List.map_congr_left
        intro r hr
        obtain ⟨cc, hcc⟩ := hcompiles r hr
        simp [compileFor_of_ok p hcc]
    · cases he'
      exact ⟨rfl, rfl⟩

/-- With no thresholds recorded and every criterion compiling, both ways of computing give
each request the threshold error. -/
theorem computeAll_agrees_without_thresholds :
    let p : Pipeline := ⟨⟨1, ["CD3", "CD15"], by decide⟩, 4096, {}⟩
    let table : IntensityTable := ⟨"WCM1", ["CD3", "CD15"], [[1, 31], [9, 2]]⟩
    let rs : List FeatureRequest := [⟨none, ⟨["CD15"], []⟩⟩, ⟨some "tumor", ⟨["CD3"], ["CD15"]⟩⟩]
    ((∃ a, p.encodeSample (.empty 1e-6) table = .ok a) ∨
        ∀ r ∈ rs, ∃ cc, r.criterion.compile p.table = .ok cc) ∧
      (p.computeAll (.empty 1e-6) {} rs table).1 =
        (p.computeMany (.empty 1e-6) {} (rs.map (·, table))).1 ∧
      (((∃ a, p.encodeSample (.empty 1e-6) table = .ok a) ∨
          ∀ r ∈ rs, ∃ cc, r.criterion.compile p.table = .ok cc) →
        p.computeAll (.empty 1e-6) {} rs table = p.computeMany (.empty 1e-6) {} (rs.map (·, table))) ∧
      ∀ e, p.encodeSample (.empty 1e-6) table = .error e →
        p.computeAll (.empty 1e-6) {} rs table =
          ({}, rs.map fun r => .error (e.withFeature r.featureId)) ∧
        p.computeMany (.empty 1e-6) {} (rs.map (·, table)) =
          ({}, rs.map fun r => match p.compileFor table.sample r.featureId r.criterion with
            | .error e' => .error e'
            | .ok _ => .error (e.withFeature r.featureId)) := by
  intro p table rs
  have hcompiles : ∀ r ∈ rs, ∃ cc, r.criterion.compile p.table = .ok cc := by
    intro r hr
    simp only [rs, List.mem_cons, List.not_mem_nil, or_false] at hr
    rcases hr with rfl | rfl <;> exact ⟨_, rfl⟩
  exact ⟨Or.inr hcompiles, computeAll_agrees_when_encoded_or_compiled p (.empty 1e-6) table {} rs⟩

/-- Computing requests together does not always give what computing them one by one gives:
with no threshold recorded, a request naming a channel on both sides is refused at the
threshold stage together, but at the match stage alone. -/
theorem computeAll_refuses_contradiction_at_threshold_stage :
    let p : Pipeline := ⟨⟨1, ["A"], by decide⟩, 4096, {}⟩
    let table : IntensityTable := ⟨"S", ["A"], [[1]]⟩
    let rs : List FeatureRequest := [⟨some "f", ⟨["A"], ["A"]⟩⟩]
    p.computeAll (.empty 1e-6) {} rs table ≠ p.computeMany (.empty 1e-6) {} (rs.map (·, table)) := by
  intro p table rs h
  have hstages := congrArg
    (fun x => x.2.map fun o => match o with | .error e => some e.stage | .ok _ => none) h
  revert hstages
  decide

end Pipeline
end Phenotyping
