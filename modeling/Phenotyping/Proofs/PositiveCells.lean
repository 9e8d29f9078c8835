import Phenotyping.Proofs.JobOrder
import Phenotyping.Proofs.StoreHistory
/-! # The refined threshold and the cells the encoder gates positive

Refinement reports how many cells lie at or above the boundary it settles on, summing class
counts chunk by chunk; the encoder sets a cell's bit when its value reaches the channel's
threshold. Both read a channel through its column and compare with `≥`, so once a refined
threshold is committed, counting the cells positive for that one channel gives the number the
refinement reported, whatever the chunk size and the column layout.

The commit takes effect because the run's generation is fresh: in every store the API can
reach, a key's stored generation is at most the number of runs it has issued.
-/
namespace Phenotyping
set_option autoImplicit false

namespace Separation

theorem flatten_chunks {α : Type} (size : Nat) (xs : List α) : (chunks size xs).flatten = xs := by
  fun_induction chunks size xs with
  | case1 => rfl
  | case2 x rest ih => rw [List.flatten_cons, ih, List.take_append_drop]

def classCount (s : SplitSums) : Bool → Nat
  | true => s.positiveCount
  | false => s.negativeCount

theorem classCount_empty (c : Bool) : classCount {} c = 0 := by
  cases c <;> rfl

theorem classCount_add (s : SplitSums) (v : Float) (b c : Bool) :
    classCount (s.add v b) c = classCount s c + if b = c then 1 else 0 := by
  cases b <;> cases c <;> simp [classCount, SplitSums.add]

theorem classCount_merge (a b : SplitSums) (c : Bool) :
    classCount (a.merge b) c = classCount a c + classCount b c := by
  cases c <;> rfl

theorem classCount_foldl_add (c : Bool) (xs : List (Float × Bool)) (s : SplitSums) :
    classCount (xs.foldl (fun s p => s.add p.1 p.2) s) c = classCount s c + xs.countP (·.2 = c) := by
  induction xs generalizing s with
  | nil => simp
  | cons x xs ih =>
    rw [List.foldl_cons, ih, classCount_add, List.countP_cons]
    by_cases hx : x.2 = c <;> simp [hx]
    omega

theorem classCount_foldl_merge (c : Bool) (cs : List (List (Float × Bool))) (acc : SplitSums) :
    classCount (cs.foldl (fun acc ch => acc.merge (SplitSums.ofLabelled ch)) acc) c =
      classCount acc c + cs.flatten.countP (·.2 = c) := by
  induction cs generalizing acc with
  | nil => simp
  | cons ch cs ih =>
    rw [List.foldl_cons, ih, classCount_merge, SplitSums.ofLabelled, classCount_foldl_add,
      classCount_empty, List.flatten_cons, List.countP_append]
    omega

theorem classCount_chunkedSums (size : Nat) (xs : List (Float × Bool)) (c : Bool) :
    classCount (chunkedSums size xs) c = xs.countP (·.2 = c) := by
  rw [chunkedSums, classCount_foldl_merge, flatten_chunks, classCount_empty, Nat.zero_add]

theorem positiveCount_chunkedSums (size : Nat) (xs : List (Float × Bool)) :
    (chunkedSums size xs).positiveCount = xs.countP (·.2) := by
  simpa [classCount] using classCount_chunkedSums size xs true

theorem positiveCount_sumsAt (chunk : Nat) (values : List Float) (boundary : Float) :
    (sumsAt chunk values boundary).positiveCount = values.countP fun v => decide (v ≥ boundary) := by
  rw [sumsAt, positiveCount_chunkedSums, List.countP_map]
  rfl

/-- A refined boundary reports the number of values at or above it. -/
theorem positiveCells_of_refine {cfg : RefinementConfig} {chunk : Nat} {values : List Float}
    {seeds : List Bool} {r : Refined} (h : refine cfg chunk values seeds = .ok r) :
    r.positiveCells = values.countP fun v => decide (v ≥ r.value) := by
  rw [← positiveCount_sumsAt]
  unfold refine at h
  simp only [bind, Except.bind, pure, Except.pure, throw, throwThe, MonadExceptOf.throw] at h
  -- every branch but the last fails; the last builds the result from the final boundary
  repeat' split at h
  all_goals cases h
  rfl

end Separation

namespace ThresholdStore

/-- Every stored entry comes from a run the store has issued: its generation is at most the
number of runs its key has issued. -/
def Coherent (s : ThresholdStore) : Prop :=
  ∀ k e, (s.stateOf k).current = some e → e.generation ≤ (s.stateOf k).issued

theorem coherent_empty (tol : Float) : (empty tol).Coherent := by
  intro k e h
  simp at h

theorem Coherent.beginRun {s : ThresholdStore} (h : s.Coherent) (sample channel : String) :
    (s.beginRun sample channel).2.Coherent := by
  intro k e he
  rw [beginRun_snd, stateOf_setState] at he ⊢
  by_cases hk : k = ⟨sample, channel⟩
  · subst hk
    simp only [if_true] at he ⊢
    exact Nat.le_succ_of_le (h _ e he)
  · simp only [hk, if_false] at he ⊢
    exact h k e he

theorem Coherent.commit {s s' : ThresholdStore} (h : s.Coherent) {t : RunTicket} {value : Float}
    {origin : String} {u : ThresholdUpdate} (ht : t.generation ≤ (s.stateOf t.key).issued)
    (hc : s.commit t value origin = .ok (u, s')) : s'.Coherent := by
  cases hv : Binary64.isFinite value with
  | false => rw [commit_of_not_finite hv] at hc; cases hc
  | true =>
    rw [commit_of_finite hv] at hc
    cases hc
    intro k e he
    rw [stateOf_setState] at he ⊢
    by_cases hk : k = t.key
    · subst hk
      simp only [if_true, Option.some.injEq] at he ⊢
      subst he
      -- the settled entry is the stored one or the incoming one, both issued
      cases hcur : (s.stateOf t.key).current with
      | none => simpa [settle, hcur] using ht
      | some cur =>
        by_cases hgt : cur.generation > t.generation
        · simpa [settle, hcur, hgt] using h _ cur hcur
        · simpa [settle, hcur, hgt] using ht
    · simp only [hk, if_false] at he ⊢
      exact h k e he

theorem get_of_commit_fresh {s s' : ThresholdStore} (h : s.Coherent) {sample channel : String}
    {value : Float} {origin : String} {u : ThresholdUpdate}
    (hc : (s.beginRun sample channel).2.commit (s.beginRun sample channel).1 value origin = .ok (u, s')) :
    s'.get sample channel = some ⟨value, origin, (s.stateOf ⟨sample, channel⟩).issued + 1⟩ := by
  cases hv : Binary64.isFinite value with
  | false => rw [commit_of_not_finite hv] at hc; cases hc
  | true =>
    rw [commit_of_finite hv] at hc
    cases hc
    have hkey : (s.beginRun sample channel).1.key = ⟨sample, channel⟩ := rfl
    have hgen : (s.beginRun sample channel).1.generation = (s.stateOf ⟨sample, channel⟩).issued + 1 := rfl
    have hcur : ((s.beginRun sample channel).2.stateOf ⟨sample, channel⟩).current =
        (s.stateOf ⟨sample, channel⟩).current := by
      rw [beginRun_snd, stateOf_setState, if_pos rfl]
    rw [get, hkey, stateOf_setState, if_pos rfl]
    simp only [hcur, hgen]
    cases hprev : (s.stateOf ⟨sample, channel⟩).current with
    | none => rfl
    | some cur =>
      -- the stored generation is at most the issued count, below the new run's
      have hle := h _ cur hprev
      have hnot : ¬cur.generation > (s.stateOf ⟨sample, channel⟩).issued + 1 := by omega
      simp [settle, hnot]

end ThresholdStore

namespace Pipeline

variable (p : Pipeline)

theorem optimizeChannel_of_ok {store : ThresholdStore} {table : IntensityTable} {channel : String}
    {seeds : List Bool} {origin : String} {run : ChannelOptimization}
    (hrun : (p.optimizeChannel store table channel seeds origin).2 = .ok run) :
    ∃ values, table.column channel = some values ∧
      Separation.refine p.refinement p.chunkSize values seeds = .ok run.optimized ∧
      (store.beginRun table.sample channel).2.commit (store.beginRun table.sample channel).1
        run.optimized.value origin = .ok (run.update, (p.optimizeChannel store table channel seeds origin).1) := by
  unfold optimizeChannel at hrun ⊢
  cases hcol : table.column channel with
  | none => simp [hcol] at hrun
  | some values =>
    simp only [hcol] at hrun ⊢
    cases href : Separation.refine p.refinement p.chunkSize values seeds with
    | error e => simp [href] at hrun
    | ok r =>
      simp only [href] at hrun ⊢
      cases hc : (store.beginRun table.sample channel).2.commit (store.beginRun table.sample channel).1
          r.value origin with
      | error e => simp [hc] at hrun
      | ok us =>
        obtain ⟨u, s'⟩ := us
        simp only [hc, Except.ok.injEq] at hrun
        subst hrun
        exact ⟨values, rfl, href, hc⟩

theorem coherent_optimizeChannel {store : ThresholdStore} (h : store.Coherent) (table : IntensityTable)
    (channel : String) (seeds : List Bool) (origin : String) :
    (p.optimizeChannel store table channel seeds origin).1.Coherent := by
  unfold optimizeChannel
  cases table.column channel with
  | none => exact h
  | some values =>
    have hbegun := h.beginRun table.sample channel
    have hissued : (store.beginRun table.sample channel).1.generation ≤
        ((store.beginRun table.sample channel).2.stateOf (store.beginRun table.sample channel).1.key).issued := by
      simp [ThresholdStore.beginRun_fst, ThresholdStore.beginRun_snd, ThresholdStore.stateOf_setState]
    simp only
    cases Separation.refine p.refinement p.chunkSize values seeds with
    | error e => exact hbegun
    | ok r =>
      simp only
      cases hc : (store.beginRun table.sample channel).2.commit (store.beginRun table.sample channel).1
          r.value origin with
      | error e => exact hbegun
      | ok us => exact hbegun.commit hissued hc

variable (store : ThresholdStore) (table : IntensityTable)

theorem evaluate_of_complete (r : FeatureRequest)
    (hover : ¬∃ c ∈ r.criterion.positive, c ∈ r.criterion.negative)
    (hknown : (r.criterion.positive ++ r.criterion.negative).find? (fun c => p.table.bitOf c = none) = none)
    (hthr : p.table.layout.find? (fun c => store.get table.sample c = none) = none)
    (hcol : p.table.layout.find? (fun c => table.columnIndex c = none) = none) :
    p.evaluate store r table =
      .ok (⟨r.featureId, table.sample, table.rows.countP (r.criterion.meets table store)⟩, table.numCells) := by
  obtain ⟨cc, hcc, hver, hch, hadmits⟩ := Criterion.compile_of_known hover hknown
  obtain ⟨a, ha, hs, hv, hc, gate, hmasks, hgate⟩ := encodeSample_of_complete p store table hthr hcol
  -- each cell's mask is admitted exactly when the cell meets the criterion
  have hcount : ((table.rows.map gate).filter cc.admits).length =
      table.rows.countP (r.criterion.meets table store) := by
    rw [← List.countP_eq_length_filter, List.countP_map]
    congr 1
    funext row
    exact admits_gate p store table hknown hadmits hgate row
  simp [evaluate, compileFor_of_ok p hcc, ha, CompiledCriterion.count_of_stamps hver hch hv hc, hcount,
    hs, CellMasks.len, hmasks, IntensityTable.numCells]

/-- The optimizer and the encoder classify cells alike. After a channel's threshold is
refined and committed, and as long as nothing else is written to that channel of the sample,
computing the criterion that asks for that channel alone counts exactly the cells the
refinement reported at or above its boundary, once every channel of the table has a
threshold and a column. -/
theorem compute_single_channel_counts_refined_cells (hcoh : store.Coherent) {channel : String} (hchannel : channel ∈ p.table.layout)
    (seeds : List Bool) (origin : String) {run : ChannelOptimization}
    (hrun : (p.optimizeChannel store table channel seeds origin).2 = .ok run)
    (later : ThresholdStore)
    (hsame : later.get table.sample channel =
      (p.optimizeChannel store table channel seeds origin).1.get table.sample channel)
    (hthr : ∀ c ∈ p.table.layout, (later.get table.sample c).isSome)
    (hcol : ∀ c ∈ p.table.layout, (table.columnIndex c).isSome)
    (cache : FeatureCache) (feature : Option String) :
    ∃ o, (p.compute later cache ⟨feature, Criterion.ofLists [channel] []⟩ table).2 = .ok o ∧
      o.value.count = run.optimized.positiveCells := by
  obtain ⟨values, hvalues, hrefine, hcommit⟩ := optimizeChannel_of_ok p hrun
  have hentry := ThresholdStore.get_of_commit_fresh hcoh hcommit
  obtain ⟨j, hj⟩ := Option.isSome_iff_exists.mp (hcol channel hchannel)
  have hcrit : Criterion.ofLists [channel] [] = ⟨[channel], []⟩ := rfl
  -- the criterion names one known channel and nothing negative
  have hknown : ([channel] ++ []).find? (fun c => p.table.bitOf c = none) = none := by
    obtain ⟨b, hb⟩ : ∃ b, p.table.bitOf channel = some b :=
      Option.isSome_iff_exists.mp (by simpa [ChannelTable.bitOf, List.isSome_idxOf?] using hchannel)
    simp [hb]
  have hthr' : p.table.layout.find? (fun c => later.get table.sample c = none) = none :=
    List.find?_eq_none.mpr fun c hc => by simpa [Option.isSome_iff_ne_none] using hthr c hc
  have hcol' : p.table.layout.find? (fun c => table.columnIndex c = none) = none :=
    List.find?_eq_none.mpr fun c hc => by simpa [Option.isSome_iff_ne_none] using hcol c hc
  have heval := evaluate_of_complete p later table ⟨feature, Criterion.ofLists [channel] []⟩
    (by simp [hcrit]) (by simpa [hcrit] using hknown) hthr' hcol'
  refine ⟨_, by rw [compute_eq_evaluate_put, heval], ?_⟩
  -- both sides count the cells whose value in the channel's column reaches the boundary
  have hcolumn : values = table.rows.map fun row => row.getD j 0 := by
    simp [IntensityTable.column, hj, IntensityTable.columnAt] at hvalues
    exact hvalues.symm
  show table.rows.countP ((Criterion.ofLists [channel] []).meets table later) = run.optimized.positiveCells
  rw [Separation.positiveCells_of_refine hrefine, hcolumn, List.countP_map]
  congr 1
  funext row
  simp [hcrit, Criterion.meets, IntensityTable.positiveFor, hj, hsame, hentry]

/-- Two cells of one channel, seeded one negative and one positive: the refined boundary is
committed, and counting the channel's positive cells agrees with the refinement. -/
theorem compute_single_channel_counts_refined_cells_two_cells :
    let p : Pipeline := ⟨⟨1, ["A"], by decide⟩, 4096, {}⟩
    let table : IntensityTable := ⟨"S", ["A"], [[1], [3]]⟩
    let after := (p.optimizeChannel (.empty 1e-6) table "A" [false, true] "o").1
    ∃ run, (p.optimizeChannel (.empty 1e-6) table "A" [false, true] "o").2 = .ok run ∧
      (ThresholdStore.empty 1e-6).Coherent ∧
      "A" ∈ p.table.layout ∧ (∀ c ∈ p.table.layout, (after.get table.sample c).isSome) ∧
      (∀ c ∈ p.table.layout, (table.columnIndex c).isSome) ∧
      ∃ o, (p.compute after {} ⟨none, Criterion.ofLists ["A"] []⟩ table).2 = .ok o ∧
        o.value.count = run.optimized.positiveCells := by
  intro p table after
  have hok : ((p.optimizeChannel (.empty 1e-6) table "A" [false, true] "o").2.toOption).isSome := by
    decide +kernel
  cases hres : (p.optimizeChannel (.empty 1e-6) table "A" [false, true] "o").2 with
  | error e => rw [hres] at hok; cases hok
  | ok run =>
    have hA : "A" ∈ p.table.layout := by decide
    have hthr : ∀ c ∈ p.table.layout, (after.get table.sample c).isSome := by decide +kernel
    have hcol : ∀ c ∈ p.table.layout, (table.columnIndex c).isSome := by decide
    exact ⟨run, rfl, ThresholdStore.coherent_empty _, hA, hthr, hcol,
      compute_single_channel_counts_refined_cells p _ table (ThresholdStore.coherent_empty _) hA
        [false, true] "o" hres after rfl hthr hcol {} none⟩

end Pipeline
end Phenotyping
