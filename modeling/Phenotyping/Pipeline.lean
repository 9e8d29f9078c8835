import Phenotyping.Criterion
import Phenotyping.FeatureCache
import Phenotyping.Separation.Intermeans
/-! # The feature pipeline

A pipeline joins a channel table, the shared threshold store and a feature cache. Computing
a feature for a sample compiles the request's criterion (stage `match`), freezes the sample's
thresholds (stage `threshold`), encodes the cells (stage `encode`), counts the matching cells
and files the count in the cache, where the first count of a key stays. Optimizing a channel
refines its threshold from seed labels (stage `optimize`) and commits it (stage `threshold`).

Every failure names its stage, the sample, the feature when one is being computed, and the
channel the inner error is about.
-/
namespace Phenotyping
set_option autoImplicit false

/-- The steps of the pipeline. -/
inductive Stage where
  | optimizing
  | thresholding
  | encoding
  | matching
  deriving DecidableEq, Repr, Inhabited

def Stage.name : Stage → String
  | .optimizing => "optimize"
  | .thresholding => "threshold"
  | .encoding => "encode"
  | .matching => "match"

/-- The error a stage met. -/
inductive StageError where
  | separation (e : Separation.SeparationError)
  | threshold (e : ThresholdError)
  | encoding (e : EncodeError)
  | matching (e : MatchError)
  deriving Inhabited

namespace StageError

def message : StageError → String
  | .separation e => e.message
  | .threshold e => e.message
  | .encoding e => e.message
  | .matching e => e.message

/-- The channel an inner error is about; of contradictory channels, the first. -/
def channel : StageError → Option String
  | .threshold (.missingThreshold _ c) => some c
  | .threshold (.nonFiniteValue _ c _) => some c
  | .encoding (.missingThreshold _ c) => some c
  | .encoding (.missingColumn _ c) => some c
  | .matching (.unknownChannel c) => some c
  | .matching (.contradictoryCriterion cs) => cs.head?
  | _ => none

end StageError

/-- A failure in the pipeline. -/
structure PipelineError where
  sample : String
  feature : Option String
  channel : Option String
  stage : Stage
  source : StageError
  deriving Inhabited

namespace PipelineError

/-- An error of a stage, with the channel its source names. -/
def make (sample : String) (feature : Option String) (stage : Stage) (source : StageError) :
    PipelineError :=
  ⟨sample, feature, source.channel, stage, source⟩

def withFeature (e : PipelineError) (f : String) : PipelineError := { e with feature := some f }

def message (e : PipelineError) : String :=
  let feature := match e.feature with | some f => s!", feature '{f}'" | none => ""
  let channel := match e.channel with | some c => s!", channel '{c}'" | none => ""
  s!"{e.stage.name} stage failed for sample '{e.sample}'{feature}{channel}: {e.source.message}"

end PipelineError

/-- A feature to compute: a criterion, filed under an explicit name or the criterion's. -/
structure FeatureRequest where
  feature : Option String
  criterion : Criterion
  deriving Inhabited

def FeatureRequest.featureId (r : FeatureRequest) : String :=
  r.feature.getD r.criterion.canonicalName

/-- A computed feature: the value, the sample's cell count, and what the cache did. -/
structure FeatureOutcome where
  value : FeatureValue
  totalCells : Nat
  write : PutOutcome
  deriving Inhabited

def FeatureOutcome.fraction (o : FeatureOutcome) : Option Float :=
  if o.totalCells = 0 then none else some (Float.ofNat o.value.count / Float.ofNat o.totalCells)

/-- A refined threshold and what committing it did. -/
structure ChannelOptimization where
  optimized : Separation.Refined
  update : ThresholdUpdate
  deriving Inhabited

/-- A table with the chunk size and refinement limits that the pipeline works with. -/
structure Pipeline where
  table : ChannelTable
  chunkSize : Nat
  refinement : Separation.RefinementConfig
  deriving Inhabited

namespace Pipeline

/-- Refines and commits one channel's threshold for a table's sample. The run's generation is
taken before refining, so a failed refinement still uses it up. -/
def optimizeChannel (p : Pipeline) (store : ThresholdStore) (table : IntensityTable)
    (channel : String) (seeds : List Bool) (origin : String) :
    ThresholdStore × Except PipelineError ChannelOptimization :=
  let sample := table.sample
  match table.column channel with
  | none => (store, .error (.make sample none .optimizing (.encoding (.missingColumn sample channel))))
  | some values =>
    let (ticket, store) := store.beginRun sample channel
    match Separation.refine p.refinement p.chunkSize values seeds with
    | .error e =>
      (store, .error { PipelineError.make sample none .optimizing (.separation e) with channel := some channel })
    | .ok r => match store.commit ticket r.value origin with
      | .error e => (store, .error (.make sample none .thresholding (.threshold e)))
      | .ok (u, store) => (store, .ok ⟨r, u⟩)

def encodeSample (p : Pipeline) (store : ThresholdStore) (table : IntensityTable) :
    Except PipelineError CellMasks :=
  match store.snapshot table.sample p.table with
  | .error e => .error (.make table.sample none .thresholding (.threshold e))
  | .ok snap => match CellMasks.encode p.table table snap with
    | .error e => .error (.make table.sample none .encoding (.encoding e))
    | .ok a => .ok a

def compileFor (p : Pipeline) (sample feature : String) (c : Criterion) :
    Except PipelineError CompiledCriterion :=
  (c.compile p.table).mapError fun e => .make sample (some feature) .matching (.matching e)

/-- Counts a feature with the pipeline's matcher, which takes the cells a chunk at a time,
and files it. -/
def countAndStore (p : Pipeline) (cache : FeatureCache) (feature : String)
    (cc : CompiledCriterion) (a : CellMasks) : FeatureCache × Except PipelineError FeatureOutcome :=
  match (Matcher.make p.table p.chunkSize).count cc a with
  | .error e => (cache, .error (.make a.sample (some feature) .matching (.matching e)))
  | .ok n =>
    let v : FeatureValue := ⟨feature, a.sample, n⟩
    let (w, cache) := cache.put v
    (cache, .ok ⟨v, a.len, w⟩)

def compute (p : Pipeline) (store : ThresholdStore) (cache : FeatureCache) (r : FeatureRequest)
    (table : IntensityTable) : FeatureCache × Except PipelineError FeatureOutcome :=
  let feature := r.featureId
  match p.compileFor table.sample feature r.criterion with
  | .error e => (cache, .error e)
  | .ok cc => match p.encodeSample store table with
    | .error e => (cache, .error (e.withFeature feature))
    | .ok a => p.countAndStore cache feature cc a

/-- Computes several features of one sample, encoding it once. If encoding fails, every
request gets that error under its own feature. -/
def computeAll (p : Pipeline) (store : ThresholdStore) (cache : FeatureCache)
    (rs : List FeatureRequest) (table : IntensityTable) :
    FeatureCache × List (Except PipelineError FeatureOutcome) :=
  match p.encodeSample store table with
  | .error e => (cache, rs.map fun r => .error (e.withFeature r.featureId))
  | .ok a =>
    rs.foldl (fun (acc : FeatureCache × List (Except PipelineError FeatureOutcome)) r =>
      let feature := r.featureId
      match p.compileFor a.sample feature r.criterion with
      | .error e => (acc.1, acc.2 ++ [.error e])
      | .ok cc =>
        let (cache, o) := p.countAndStore acc.1 feature cc a
        (cache, acc.2 ++ [o])) (cache, [])

def computeMany (p : Pipeline) (store : ThresholdStore) (cache : FeatureCache)
    (jobs : List (FeatureRequest × IntensityTable)) :
    FeatureCache × List (Except PipelineError FeatureOutcome) :=
  jobs.foldl (fun (acc : FeatureCache × List (Except PipelineError FeatureOutcome)) j =>
    let (cache, o) := p.compute store acc.1 j.1 j.2
    (cache, acc.2 ++ [o])) (cache, [])

end Pipeline
end Phenotyping
