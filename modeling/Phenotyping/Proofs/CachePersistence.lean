import Phenotyping.Proofs.RunSteps
import Phenotyping.Proofs.JobOrder
import Phenotyping.Proofs.DirectoryFiles
/-! # Counts a cache file keeps

A `count` run with a cache file loads the cache the file lists, files the request's count, and
rewrites the file with the cache's values only when the count was stored, that is when the
file listed no value for the request's key. The rewritten file reads back as written when the
values are plain (`FeatureValue.Plain`): the reader trims every field, so a feature or a sample
with a blank at either end would come back as another key. Values read from the file are
plain already, so for a request whose feature and sample have no blank at either end, every
run either leaves the directory as it is or rewrites the file to list each key once: every key
it listed, with the first count it listed, and the request's key. Over any sequence of such
runs, a count the file lists is never changed. Of the delimited-text library the argument uses
only the laws of `Files.RecordFormat.Laws` on feature-value files.
-/
namespace Phenotyping
set_option autoImplicit false

theorem CellMasks.len_of_encode {t : ChannelTable} {table : IntensityTable}
    {snap : ThresholdSnapshot} {a : CellMasks} (h : CellMasks.encode t table snap = .ok a) :
    a.len = table.rows.length := by
  unfold CellMasks.encode at h
  split at h
  · cases h
  · split at h
    · cases h
    · split at h
      · cases h
      · cases hg : CellMasks.gates t table snap t.bits with
        | error e => rw [hg] at h; cases h
        | ok gs =>
          rw [hg] at h
          cases h
          simp [CellMasks.len]

theorem CompiledCriterion.count_le_len {t : ChannelTable} {cc : CompiledCriterion}
    {a : CellMasks} {n : Nat} (h : cc.count t a = .ok n) : n ≤ a.len := by
  unfold CompiledCriterion.count at h
  cases hc : CompiledCriterion.checkLayout t cc a with
  | error e => rw [hc] at h; cases h
  | ok u =>
    rw [hc] at h
    cases h
    exact List.length_filter_le _ _

namespace Pipeline

variable (p : Pipeline) (store : ThresholdStore)

theorem len_of_encodeSample {table : IntensityTable} {a : CellMasks}
    (h : p.encodeSample store table = .ok a) : a.len = table.rows.length := by
  unfold encodeSample at h
  split at h
  · cases h
  · split at h
    · cases h
    · rename_i he
      cases h
      exact CellMasks.len_of_encode he

theorem evaluate_ok {r : FeatureRequest} {table : IntensityTable} {v : FeatureValue} {n : Nat}
    (h : p.evaluate store r table = .ok (v, n)) :
    v.feature = r.featureId ∧ v.sample = table.sample ∧ v.count ≤ table.rows.length := by
  unfold evaluate at h
  split at h
  · cases h
  · split at h
    · cases h
    · rename_i a ha
      split at h
      · cases h
      · rename_i m hm
        cases h
        refine ⟨rfl, sample_of_encodeSample p store table ha, ?_⟩
        calc m ≤ a.len := CompiledCriterion.count_le_len hm
          _ = table.rows.length := p.len_of_encodeSample store ha

end Pipeline

namespace FeatureCache

theorem mem_entries_ofPuts {vs : List FeatureValue} {v : FeatureValue}
    (h : v ∈ (ofPuts vs).entries) : v ∈ vs := by
  induction vs using List.reverseRecOn with
  | nil => simp [ofPuts] at h
  | append_singleton vs w ih =>
    rw [ofPuts_append_singleton] at h
    rw [List.mem_append]
    cases hw : (ofPuts vs).get w.feature w.sample with
    | some e =>
      rw [put_of_get_some hw] at h
      exact Or.inl (ih h)
    | none =>
      rw [put_of_get_none hw] at h
      rcases List.mem_append.mp h with h | h
      · exact Or.inl (ih h)
      · exact Or.inr h

theorem firstPut_eq_some_iff_of_nodup {l : List FeatureValue} (hl : (l.map FeatureValue.key).Nodup)
    (f s : String) (x : FeatureValue) :
    firstPut l f s = some x ↔ x ∈ l ∧ x.feature = f ∧ x.sample = s := by
  constructor
  · intro h
    have hx := List.find?_some h
    simp only [decide_eq_true_eq] at hx
    exact ⟨List.mem_of_find?_eq_some h, hx⟩
  · rintro ⟨hx, hf, hs⟩
    obtain ⟨y, hy⟩ := Option.isSome_iff_exists.mp
      (List.find?_isSome.mpr ⟨x, hx, by simp [hf, hs]⟩ :
        (l.find? fun v => v.feature = f ∧ v.sample = s).isSome)
    have hyk := List.find?_some hy
    simp only [decide_eq_true_eq] at hyk
    -- `y` and `x` share their key, and the keys are distinct
    have hxy : y = x := List.inj_on_of_nodup_map hl (List.mem_of_find?_eq_some hy) hx
      (by simp [FeatureValue.key, hyk, hf, hs])
    exact hxy ▸ hy

theorem firstPut_perm {l l' : List FeatureValue} (hp : l.Perm l')
    (hl : (l.map FeatureValue.key).Nodup) (f s : String) : firstPut l f s = firstPut l' f s := by
  have hl' : (l'.map FeatureValue.key).Nodup := (hp.map _).nodup_iff.mp hl
  apply Option.ext
  intro x
  rw [firstPut_eq_some_iff_of_nodup hl, firstPut_eq_some_iff_of_nodup hl', hp.mem_iff]

theorem values_perm (c : FeatureCache) : c.values.Perm c.entries :=
  (List.mergeSort_perm _ _).trans (hashOrder_perm c.entries)

theorem values_ofPuts (vs : List FeatureValue) :
    ((ofPuts vs).values.map FeatureValue.key).Nodup ∧
      (∀ k, k ∈ (ofPuts vs).values.map FeatureValue.key ↔ k ∈ vs.map FeatureValue.key) ∧
      ∀ f s, firstPut (ofPuts vs).values f s = firstPut vs f s := by
  have hp := values_perm (ofPuts vs)
  obtain ⟨hnodup, hmem⟩ := keys_ofPuts vs
  refine ⟨(hp.map _).nodup_iff.mpr hnodup, fun k => ((hp.map _).mem_iff).trans (hmem k), ?_⟩
  intro f s
  calc firstPut (ofPuts vs).values f s
      = firstPut (ofPuts vs).entries f s := firstPut_perm hp ((hp.map _).nodup_iff.mpr hnodup) f s
    _ = (ofPuts vs).get f s := rfl
    _ = firstPut vs f s := get_ofPuts vs f s

end FeatureCache

end Phenotyping

namespace Phenotyping.CommandLine
set_option autoImplicit false

open Storage

/-- The feature values the file `path` lists, when it opens and reads as a feature-value
file. -/
def listedValues (d : Directory) (path : String) : Option (List FeatureValue) :=
  match d.openRead path with
  | .ok (.file bytes) => (Files.readFeatureValues path bytes).toOption
  | _ => none

def listedKeys (d : Directory) (path : String) : List (String × String) :=
  ((listedValues d path).getD []).map FeatureValue.key

def firstListed (d : Directory) (path feature sample : String) : Option FeatureValue :=
  FeatureCache.firstPut ((listedValues d path).getD []) feature sample

def CountOptions.request (o : CountOptions) : FeatureRequest :=
  ⟨o.feature, Criterion.ofLists o.positive o.negative⟩

def CountOptions.key (o : CountOptions) : String × String := (o.request.featureId, o.input.sample)

theorem ofValues_fst (vs : List FeatureValue) :
    (FeatureCache.ofValues vs).1 = FeatureCache.ofPuts vs := by
  have h := FeatureCache.ofValuesFrom_ofPuts [] vs
  rw [List.nil_append] at h
  exact congrArg Prod.fst h

theorem reads_loadCache (path : String) :
    Reads (loadCache (some path)) fun d cache =>
      cache = FeatureCache.ofPuts ((listedValues d path).getD []) ∨
        d.openRead path = .ok .directory := by
  unfold loadCache
  refine Reads.bind (reads_present path) fun isPresent => ?_
  cases isPresent with
  | false =>
    show Reads (pure ({} : FeatureCache)) _
    refine Reads.pure' ({} : FeatureCache) fun d => ?_
    intro hpresent
    left
    obtain ⟨e, he⟩ := Directory.openRead_of_present_false hpresent.symm
    simp [listedValues, he, FeatureCache.ofPuts]
  | true =>
    refine Reads.bind (reads_tableRecords _ _) fun values => ?_
    refine Reads.bind (reads_forM _ (fun _ => reads_warn _) _) fun _ => ?_
    refine Reads.pure' _ fun d _ hvalues _ => ?_
    rcases hvalues with ⟨bytes, hopen, hread⟩ | ⟨hdir, -⟩
    · left
      simp only [listedValues, hopen, hread, Except.toOption, Option.getD_some]
      exact ofValues_fst values
    · exact Or.inr hdir

/-- What a count run that files under `path` may do to the directory `d`: nothing, or write
`path` with the values its file listed and one value more, of a key the file did not list, with
the request's feature, the sample asked for, and a count no larger than the number of cells. -/
def CountWrite (o : CountOptions) (path : String) (d d' : Directory) : Prop :=
  d' = d ∨ ∃ v : FeatureValue, v.key = o.key ∧ v.count ≤ o.input.expectedCells ∧
    firstListed d path v.feature v.sample = none ∧
    d.create path (Files.writeFeatureValues path
      (FeatureCache.ofPuts ((listedValues d path).getD [] ++ [v])).values).toUTF8.toList = .ok d'

theorem writes_count (cfg : EngineConfig) (o : CountOptions) (path : String)
    (hpath : o.cache = some path) (d : Directory) :
    Writes (count cfg o) d (CountWrite o path d) := by
  have hrefl : CountWrite o path d d := Or.inl rfl
  unfold count
  rw [hpath]
  refine Writes.bind_of_reads (reads_orFail _ _) hrefl fun channels _ => ?_
  refine Writes.bind_of_reads (reads_loadThresholds _ _) hrefl fun store _ => ?_
  refine Writes.bind_of_reads (reads_loadCache path) hrefl fun cache hcache => ?_
  refine Writes.bind_of_reads (reads_loadTable o.input) hrefl fun table htable => ?_
  dsimp only
  rw [Pipeline.compute_eq_evaluate_put]
  cases hev : Pipeline.evaluate ⟨channels, cfg.chunkSize, cfg.refinement⟩ store
    ⟨o.feature, Criterion.ofLists o.positive o.negative⟩ table with
  | error e =>
    exact Writes.bind_of_reads (reads_orFail _ _) hrefl fun outcome h => by cases h
  | ok vn =>
    obtain ⟨v, n⟩ := vn
    refine Writes.bind_of_reads (reads_orFail _ _) hrefl fun outcome houtcome => ?_
    cases houtcome
    dsimp only
    obtain ⟨hfeature, hsample, hcount⟩ := Pipeline.evaluate_ok _ _ hev
    -- a step that only warns and prints leaves the directory as it was
    have hwarn : ∀ line line', Writes (warn line >>= fun _ => say line') d (CountWrite o path d) :=
      fun line line' => ((Reads.bind (reads_warn line) fun _ =>
        (reads_say line').mono fun _ _ _ _ => trivial).writes d).mono fun _ h => Or.inl h
    rcases hcache with rfl | hdir
    · rw [FeatureCache.put_ofPuts]
      cases hfirst : FeatureCache.firstPut ((listedValues d path).getD []) v.feature v.sample with
      | some e => exact hwarn _ _
      | none =>
        refine (Writes.bind_reads (writes_writeFile _ _ d) fun _ => reads_say _).mono fun d' h => ?_
        rcases h with h | h
        · exact Or.inl h
        · refine Or.inr ⟨v, ?_, htable.1 ▸ hcount, hfirst, h⟩
          rw [FeatureValue.key, CountOptions.key, hfeature, hsample, htable.2]
          rfl
    · cases hw : (cache.put v).1 with
      | alreadyComputed k => exact hwarn _ _
      | stored =>
        refine (Writes.bind_reads (writes_writeFile _ _ d) fun _ => reads_say _).mono fun d' h => ?_
        rcases h with h | h
        · exact Or.inl h
        · obtain ⟨e, he⟩ := Directory.create_of_openRead_directory hdir _
          rw [he] at h
          cases h

theorem listedValues_plain {d : Directory} {path : String} {v : FeatureValue}
    (h : v ∈ (listedValues d path).getD []) : v.Plain := by
  unfold listedValues at h
  split at h
  · rename_i bytes _
    cases hread : Files.readFeatureValues path bytes with
    | error e => simp [hread, Except.toOption] at h
    | ok vs =>
      simp only [hread, Except.toOption, Option.getD_some] at h
      exact Files.RecordFormat.standard_laws.readFeatureValues_plain hread v h
  · simp at h

theorem listedValues_of_create {d d' : Directory} {path : String} {vs : List FeatureValue}
    (hvs : ∀ v ∈ vs, v.Plain)
    (h : d.create path (Files.writeFeatureValues path vs).toUTF8.toList = .ok d') :
    listedValues d' path = some vs ∨ d' = d := by
  have hread : Files.readFeatureValues path (Files.writeFeatureValues path vs).toUTF8.toList = .ok vs :=
    Files.RecordFormat.standard_laws.readFeatureValues_writeFeatureValues path vs hvs
  rcases Directory.openRead_of_create h with hopen | ⟨rfl, -⟩
  · left
    simp only [listedValues, hopen, hread, Except.toOption]
  · exact Or.inr rfl

/-- What a run filing under `key` may do to the feature-value file `path`: a run on a key the
file lists leaves the directory as it is, and any run either leaves it as it is or rewrites
the file to list each key it listed and `key`, each once, with the first value it listed for
each key it listed. -/
def RewritesListing (path : String) (key : String × String) (d d' : Directory) : Prop :=
  (key ∈ listedKeys d path → d' = d) ∧
    (d' = d ∨ ∃ out, listedValues d' path = some out ∧ (out.map FeatureValue.key).Nodup ∧
      (∀ k, k ∈ out.map FeatureValue.key ↔ k ∈ listedKeys d path ∨ k = key) ∧
      ∀ f s, (firstListed d path f s).isSome → FeatureCache.firstPut out f s = firstListed d path f s)

theorem rewritesListing_refl (path : String) (key : String × String) (d : Directory) :
    RewritesListing path key d d :=
  ⟨fun _ => rfl, Or.inl rfl⟩

theorem rewritesListing_of_countWrite {o : CountOptions} {path : String} {d d' : Directory}
    (hkey : Text.trim o.key.1 = o.key.1 ∧ Text.trim o.key.2 = o.key.2)
    (hcells : o.input.expectedCells ≤ DelimitedText.countLimit) (h : CountWrite o path d d') :
    RewritesListing path o.key d d' := by
  rcases h with h | ⟨v, hv, hcount, hfirst, hcreate⟩
  · rw [h]
    exact rewritesListing_refl path o.key d
  have hvf : v.feature = o.key.1 := congrArg Prod.fst hv
  have hvs : v.sample = o.key.2 := congrArg Prod.snd hv
  have hplain : ∀ w ∈ (FeatureCache.ofPuts ((listedValues d path).getD [] ++ [v])).values,
      w.Plain := by
    intro w hw
    have hmem := FeatureCache.mem_entries_ofPuts ((FeatureCache.values_perm _).mem_iff.mp hw)
    rcases List.mem_append.mp hmem with hw | hw
    · exact listedValues_plain hw
    · rw [List.mem_singleton.mp hw]
      exact ⟨hvf ▸ hkey.1, hvs ▸ hkey.2, Nat.le_trans hcount hcells⟩
  -- the file did not list the new key
  have hnew : o.key ∉ listedKeys d path := by
    intro hk
    obtain ⟨w, hw, hwk⟩ := List.mem_map.mp hk
    have hsome := (Pipeline.firstPut_isSome_iff _ v.feature v.sample).mpr
      ⟨w, hw, by rw [hvf, ← hwk]; rfl, by rw [hvs, ← hwk]; rfl⟩
    unfold firstListed at hfirst
    rw [hfirst] at hsome
    cases hsome
  rcases listedValues_of_create hplain hcreate with hlisted | hsame
  · obtain ⟨hnodup, hkeys, hfirsts⟩ :=
      FeatureCache.values_ofPuts ((listedValues d path).getD [] ++ [v])
    refine ⟨fun hk => absurd hk hnew, Or.inr ⟨_, hlisted, hnodup, fun k => ?_, fun f s hs => ?_⟩⟩
    · rw [hkeys k, List.map_append, List.mem_append, List.map_singleton, List.mem_singleton, hv]
      exact Iff.rfl
    · obtain ⟨e, he⟩ := Option.isSome_iff_exists.mp hs
      rw [hfirsts f s, FeatureCache.firstPut_append_of_some he, he]
  · rw [hsame]
    exact rewritesListing_refl path o.key d

theorem writes_count_rewritesListing (cfg : EngineConfig) (o : CountOptions) (path : String)
    (hpath : o.cache = some path) (hkey : Text.trim o.key.1 = o.key.1 ∧ Text.trim o.key.2 = o.key.2)
    (hcells : o.input.expectedCells ≤ DelimitedText.countLimit) (d : Directory) :
    Writes (count cfg o) d (RewritesListing path o.key d) :=
  (writes_count cfg o path hpath d).mono fun _ h => rewritesListing_of_countWrite hkey hcells h

theorem Given.expectedCells_le (g : Given) :
    g.sampleOptions.expectedCells ≤ DelimitedText.countLimit := by
  show (readCount (g.text "expected-cells")).getD 0 ≤ DelimitedText.countLimit
  unfold readCount
  split
  · rename_i n h
    exact DelimitedText.readCountIn_le h
  · exact Nat.zero_le _

theorem expectedCells_le_of_parse {args : List String} {config : Option String} {o : CountOptions}
    (h : parse args = .ok ⟨config, .count o⟩) : o.input.expectedCells ≤ DelimitedText.countLimit := by
  unfold parse at h
  simp only [bind, Except.bind] at h
  repeat' split at h
  all_goals first
    | (cases h; done)
    | (cases h; exact Given.expectedCells_le _)

/-- A count run filing into the feature-value file `path`, for a feature and a sample with no
blank at either end, asking for a number of cells that fits in 64 bits (as every command line
that parses does, `expectedCells_le_of_parse`). -/
def CountsInto (path : String) (inv : Invocation) : Prop :=
  ∃ o, inv.command = .count o ∧ o.cache = some path ∧ Text.trim o.key.1 = o.key.1 ∧
    Text.trim o.key.2 = o.key.2 ∧ o.input.expectedCells ≤ DelimitedText.countLimit

theorem execute_rewritesListing {inv : Invocation} {path : String} {o : CountOptions}
    (hcmd : inv.command = .count o) (hpath : o.cache = some path)
    (hkey : Text.trim o.key.1 = o.key.1 ∧ Text.trim o.key.2 = o.key.2)
    (hcells : o.input.expectedCells ≤ DelimitedText.countLimit) (d : Directory) :
    Writes (execute inv) d (RewritesListing path o.key d) := by
  unfold execute
  rw [hcmd]
  exact Writes.bind_of_reads (reads_loadConfig inv.config) (rewritesListing_refl path o.key d)
    fun cfg _ => writes_count_rewritesListing cfg o path hpath hkey hcells d

/-- A command line counting into a feature-value file, for a feature and a sample with no blank
at either end, rewrites the file only as `RewritesListing` allows. -/
theorem respond_rewritesListing {args : List String} {config : Option String}
    {o : CountOptions} {path : String} (hparse : parse args = .ok ⟨config, .count o⟩)
    (hpath : o.cache = some path) (hkey : Text.trim o.key.1 = o.key.1 ∧ Text.trim o.key.2 = o.key.2)
    (d : Directory) : RewritesListing path o.key d (respond args d).directory := by
  rw [respond_directory hparse]
  exact execute_rewritesListing rfl hpath hkey (expectedCells_le_of_parse hparse) d _ rfl

theorem RewritesListing.keeps {path : String} {key : String × String} {d d' : Directory}
    (h : RewritesListing path key d d') :
    ((listedValues d path).isSome → (listedValues d' path).isSome) ∧
      (∀ f s, (firstListed d path f s).isSome → firstListed d' path f s = firstListed d path f s) ∧
      (∀ k ∈ listedKeys d path, k ∈ listedKeys d' path) ∧
      ∀ k ∈ listedKeys d' path, k ∈ listedKeys d path ∨ k = key := by
  rcases h.2 with hsame | ⟨out, hout, -, hkeys, hfirsts⟩
  · rw [hsame]
    exact ⟨id, fun _ _ _ => rfl, fun _ hk => hk, fun _ hk => Or.inl hk⟩
  · have hlisted : listedKeys d' path = out.map FeatureValue.key := by
      rw [listedKeys, hout, Option.getD_some]
    have hfirst : ∀ f s, firstListed d' path f s = FeatureCache.firstPut out f s := by
      intro f s
      rw [firstListed, hout, Option.getD_some]
    refine ⟨fun _ => by rw [hout]; rfl, fun f s hs => ?_, fun k hk => ?_, fun k hk => ?_⟩
    · rw [hfirst, hfirsts f s hs]
    · rw [hlisted]
      exact (hkeys k).mpr (Or.inl hk)
    · rw [hlisted] at hk
      exact (hkeys k).mp hk

theorem CountsInto.rewritesListing {path : String} {inv : Invocation} (h : CountsInto path inv)
    {o : CountOptions} (hcmd : inv.command = .count o) (d : Directory) :
    RewritesListing path o.key d ((execute inv).run.run { directory := d }).2.directory := by
  obtain ⟨o', hcmd', hpath, hfeature, hsample, hcells⟩ := h
  obtain rfl : o = o' := by simpa [hcmd] using hcmd'
  exact execute_rewritesListing hcmd hpath ⟨hfeature, hsample⟩ hcells d { directory := d } rfl

theorem foldl_execute_keeps (path : String) (runs : List Invocation)
    (hruns : ∀ inv ∈ runs, CountsInto path inv) (d : Directory) :
    let d' := runs.foldl (fun d inv => ((execute inv).run.run { directory := d }).2.directory) d
    ((listedValues d path).isSome → (listedValues d' path).isSome) ∧
      (∀ f s, (firstListed d path f s).isSome → firstListed d' path f s = firstListed d path f s) ∧
      (∀ k ∈ listedKeys d path, k ∈ listedKeys d' path) ∧
      ∀ k ∈ listedKeys d' path, k ∈ listedKeys d path ∨
        ∃ inv ∈ runs, ∃ o, inv.command = .count o ∧ o.key = k := by
  induction runs generalizing d with
  | nil => exact ⟨id, fun _ _ _ => rfl, fun _ hk => hk, fun _ hk => Or.inl hk⟩
  | cons inv runs ih =>
    obtain ⟨o, hcmd, -⟩ := hruns inv List.mem_cons_self
    -- the first run rewrites the file at most once; the rest keep what it lists
    obtain ⟨hread₁, hfirst₁, hkeep₁, hnew₁⟩ :=
      ((hruns inv List.mem_cons_self).rewritesListing hcmd d).keeps
    obtain ⟨hread₂, hfirst₂, hkeep₂, hnew₂⟩ :=
      ih (fun i hi => hruns i (List.mem_cons_of_mem _ hi)) ((execute inv).run.run { directory := d }).2.directory
    refine ⟨fun h => hread₂ (hread₁ h), fun f s hs => ?_, fun k hk => hkeep₂ k (hkeep₁ k hk),
      fun k hk => ?_⟩
    · rw [List.foldl_cons, hfirst₂ f s (by rw [hfirst₁ f s hs]; exact hs), hfirst₁ f s hs]
    · rcases hnew₂ k hk with hk | ⟨i, hi, o', hi', hk'⟩
      · rcases hnew₁ k hk with hk | hk
        · exact Or.inl hk
        · exact Or.inr ⟨inv, List.mem_cons_self, o, hcmd, hk.symm⟩
      · exact Or.inr ⟨i, List.mem_cons_of_mem _ hi, o', hi', hk'⟩

/-- Count runs sharing a feature-value file never change a count it lists. Take any sequence
of runs counting into the file `path`, each for a feature and a sample with no blank at either
end. Each run, from the directory the runs before it left, leaves the directory as it is when
the file already lists its key, and otherwise either leaves it or rewrites the file with one
record per key: the keys it listed and the run's own, with the first value it listed for each.
Over the whole sequence, a file that read still reads; a key it listed is still listed, with
the first value it listed; and every key it lists was listed before or is the key of one of
the runs. -/
theorem count_runs_keep_first_counts (path : String) (runs : List Invocation)
    (hruns : ∀ inv ∈ runs, CountsInto path inv) (d : Directory) :
    let step := fun d inv => ((execute inv).run.run { directory := d }).2.directory
    let d' := runs.foldl step d
    (∀ pre inv post, runs = pre ++ inv :: post → ∀ o, inv.command = .count o →
      RewritesListing path o.key (pre.foldl step d) (step (pre.foldl step d) inv)) ∧
    ((listedValues d path).isSome → (listedValues d' path).isSome) ∧
      (∀ f s, (firstListed d path f s).isSome → firstListed d' path f s = firstListed d path f s) ∧
      (∀ k ∈ listedKeys d path, k ∈ listedKeys d' path) ∧
      ∀ k ∈ listedKeys d' path, k ∈ listedKeys d path ∨
        ∃ inv ∈ runs, ∃ o, inv.command = .count o ∧ o.key = k := by
  intro step d'
  refine ⟨fun pre inv post hsplit o hcmd => ?_, foldl_execute_keeps path runs hruns d⟩
  have hinv : inv ∈ runs := by simp [hsplit]
  exact (hruns inv hinv).rewritesListing hcmd _

/-- One run counting feature `g` on sample `S` into `c.tsv`, from an empty directory. -/
theorem count_runs_keep_first_counts_one_run :
    let runs : List Invocation :=
      [⟨none, .count ⟨⟨"a.tsv", "S", 2⟩, "t.tsv", ["A"], 1, ["A"], [], some "g", some "c.tsv"⟩⟩]
    let step := fun d inv => ((execute inv).run.run { directory := d }).2.directory
    let d' := runs.foldl step {}
    (∀ inv ∈ runs, CountsInto "c.tsv" inv) ∧
      (∀ pre inv post, runs = pre ++ inv :: post → ∀ o, inv.command = .count o →
        RewritesListing "c.tsv" o.key (pre.foldl step {}) (step (pre.foldl step {}) inv)) ∧
      (((listedValues {} "c.tsv").isSome → (listedValues d' "c.tsv").isSome) ∧
        (∀ f s, (firstListed {} "c.tsv" f s).isSome →
          firstListed d' "c.tsv" f s = firstListed {} "c.tsv" f s) ∧
        (∀ k ∈ listedKeys {} "c.tsv", k ∈ listedKeys d' "c.tsv") ∧
        ∀ k ∈ listedKeys d' "c.tsv", k ∈ listedKeys {} "c.tsv" ∨
          ∃ inv ∈ runs, ∃ o, inv.command = .count o ∧ o.key = k) := by
  intro runs step d'
  have hruns : ∀ inv ∈ runs, CountsInto "c.tsv" inv := by
    intro inv hinv
    rw [List.mem_singleton] at hinv
    subst hinv
    exact ⟨_, rfl, rfl, by decide, by decide, by decide⟩
  exact ⟨hruns, count_runs_keep_first_counts "c.tsv" runs hruns {}⟩

end Phenotyping.CommandLine
