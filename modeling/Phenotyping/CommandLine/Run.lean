import Phenotyping.CommandLine.Interface
import Phenotyping.Config
import Phenotyping.Pipeline
import Phenotyping.Separation.Seed
import Phenotyping.Files.Intensity
import Phenotyping.Files.Records
import Phenotyping.Text.Utf8
import Phenotyping.Storage.Directory
/-! # Running the command line

A run reads and writes the working directory as `Storage.Directory` models it, and leaves it
changed: `optimize` rewrites its thresholds file, `count` rewrites its cache file when it
stored a new count.
Warnings go to the error stream as they arise; a failure ends the run with `Error: ` and the
failure's text, exit code 1, and keeps what was printed and written before it. The standard
output gets one line at the end of a successful run.
-/
namespace Phenotyping.CommandLine
set_option autoImplicit false

open Storage

/-- What a run has printed, and the directory as it stands. -/
structure Console where
  stdout : String := ""
  stderr : String := ""
  directory : Directory
  deriving Inhabited

/-- A step of a run: it may print and write files, and may fail with a message. -/
abbrev Run := ExceptT String (StateM Console)

def say (line : String) : Run Unit :=
  modify fun c => { c with stdout := c.stdout ++ line ++ "\n" }

def warn (line : String) : Run Unit :=
  modify fun c => { c with stderr := c.stderr ++ line ++ "\n" }

def openPath (path : String) : Run (Except OsError Opened) :=
  return (← get).directory.openRead path

/-- Whether a path of the working directory names something that exists. -/
def present (path : String) : Run Bool :=
  return (← get).directory.present path

def ioFailure (e : OsError) : String := (Files.TableIoError.delimited (.io e)).message

def writeFile (path : String) (text : String) : Run Unit := do
  match (← get).directory.create path text.toUTF8.toList with
  | .ok d => modify fun c => { c with directory := d }
  | .error e => throw (ioFailure e)

/-- The value of a computation, or the run's failure with the error's text. -/
def orFail {ε α : Type} (message : ε → String) : Except ε α → Run α
  | .ok a => pure a
  | .error e => throw (message e)

def shown (x : Float) : String := Decimal.Notation.message.render x

def loadConfig : Option String → Run EngineConfig
  | none => pure {}
  | some path => do
    match ← openPath path with
    | .error e => throw (ConfigError.unreadable e).message
    | .ok .directory => throw (ConfigError.unreadable .isADirectory).message
    | .ok (.file bytes) => match Text.decodeUtf8 bytes with
      | .error _ => throw "Failed to read configuration file: stream did not contain valid UTF-8"
      | .ok text => orFail ConfigError.message (EngineConfig.ofToml text)

/-- The bytes of a table file that must be read whole: a directory fails on its first read. -/
def tableBytes (path : String) : Run (List UInt8) := do
  match ← openPath path with
  | .ok (.file bytes) => pure bytes
  | .ok .directory => throw (ioFailure .isADirectory)
  | .error e => throw (ioFailure e)

/-- The records of a table file. The record reader takes a failed first read as the end of
its input, so a directory holds no records. -/
def tableRecords {α : Type} (path : String) (read : List UInt8 → Except Files.TableIoError (List α)) :
    Run (List α) := do
  match ← openPath path with
  | .ok (.file bytes) => orFail Files.TableIoError.message (read bytes)
  | .ok .directory => pure []
  | .error e => throw (ioFailure e)

def loadTable (i : SampleOptions) : Run IntensityTable := do
  let bytes ← tableBytes i.intensities
  orFail Files.TableIoError.message (Files.readIntensity i.intensities bytes i.sample i.expectedCells)

/-- Records every threshold of a file, in file order, as coming from that file. -/
def loadThresholds (store : ThresholdStore) (path : String) : Run ThresholdStore := do
  let records ← tableRecords path (Files.readThresholds path)
  let origin := s!"file:{path}"
  records.foldlM (fun store r => do
    let (store, result) := store.record r.sample r.channel r.value origin
    let _ ← orFail ThresholdError.message result
    pure store) store

/-- Refines one channel's threshold for a sample, records it, and rewrites the thresholds
file with every recorded threshold. -/
def optimize (cfg : EngineConfig) (o : OptimizeOptions) : Run Unit := do
  let table ← loadTable o.input
  let store := ThresholdStore.empty cfg.driftTolerance
  let store ← if ← present o.thresholds then loadThresholds store o.thresholds else pure store
  let channels ← orFail ChannelTableError.message (ChannelTable.make 1 [o.channel])
  let channel := o.channel
  let values ← match table.column channel with
    | some v => pure v
    | none => throw s!"intensity table has no column '{channel}'"
  let seeds ← orFail Separation.SeparationError.message (Separation.seedFromFraction values o.seedFraction)
  let p : Pipeline := ⟨channels, cfg.chunkSize, cfg.refinement⟩
  let (store, result) := p.optimizeChannel store table channel seeds o.origin
  let done ← orFail PipelineError.message result
  let sample := o.input.sample
  let value := shown done.optimized.value
  match done.update with
  | .replaced previous delta true =>
    let old := shown previous.value
    let origin := previous.origin
    let drift := shown delta
    warn s!"Warning: threshold for {sample}/{channel} moved from {old} ({origin}) to {value} (drift {drift})"
  | _ => pure ()
  if !done.optimized.converged then
    let n := done.optimized.iterations
    warn s!"Warning: optimizer did not converge within {n} iterations"
  writeFile o.thresholds (Files.writeThresholds o.thresholds store.records)
  say s!"{sample}\t{channel}\t{value}"

/-- Loads a cache file if it exists, warning of each key it lists twice. -/
def loadCache : Option String → Run FeatureCache
  | none => pure {}
  | some path => do
    if !(← present path) then pure {} else
      let values ← tableRecords path (Files.readFeatureValues path)
      let (cache, conflicts) := FeatureCache.ofValues values
      conflicts.forM fun k =>
        let f := k.existing.feature
        let s := k.existing.sample
        let a := k.existing.count
        let b := k.attempted.count
        warn s!"Warning: {path} lists feature '{f}' for sample '{s}' twice ({a} and {b}); keeping the first"
      pure cache

/-- Counts the cells of a sample that match a criterion, and files the count in the cache. -/
def count (cfg : EngineConfig) (o : CountOptions) : Run Unit := do
  let channels ← orFail ChannelTableError.message (ChannelTable.make o.tableVersion o.channels)
  let store ← loadThresholds (ThresholdStore.empty cfg.driftTolerance) o.thresholds
  let cache ← loadCache o.cache
  let table ← loadTable o.input
  let request : FeatureRequest := ⟨o.feature, Criterion.ofLists o.positive o.negative⟩
  let p : Pipeline := ⟨channels, cfg.chunkSize, cfg.refinement⟩
  let (cache, result) := p.compute store cache request table
  let outcome ← orFail PipelineError.message result
  match outcome.write, o.cache with
  | .stored, some path => writeFile path (Files.writeFeatureValues path cache.values)
  | .stored, none => pure ()
  | .alreadyComputed k, _ =>
    let f := k.existing.feature
    let s := k.existing.sample
    let a := k.existing.count
    let b := k.attempted.count
    warn s!"Warning: value already exists for feature '{f}' on sample '{s}': stored {a}, computed {b}"
  let fraction := match outcome.fraction with
    | some x => Decimal.renderFixed 6 x
    | none => "NA"
  let v := outcome.value
  let total := outcome.totalCells
  say s!"{v.feature}\t{v.sample}\t{v.count}\t{total}\t{fraction}"

/-- Runs an invocation: the configuration first, then the subcommand. -/
def execute (inv : Invocation) : Run Unit := do
  let cfg ← loadConfig inv.config
  match inv.command with
  | .optimize o => optimize cfg o
  | .count o => count cfg o

/-- What a command line did: its exit code, the kind of its usage error if it had one, what
it printed (nothing on the error stream is reported for a usage error), and the directory
afterwards. -/
structure Response where
  exitCode : Nat
  usageError : Option String
  stdout : String
  stderr : Option String
  directory : Directory
  deriving Inhabited

/-- Runs a command line (without the program name) in a directory. -/
def respond (args : List String) (d : Directory) : Response :=
  match parse args with
  | .error (.help text) => ⟨0, some "DisplayHelp", text, some "", d⟩
  | .error .version => ⟨0, some "DisplayVersion", versionLine, some "", d⟩
  | .error (.usage e) => ⟨2, some e.kind, "", none, d⟩
  | .ok inv =>
    let (result, c) := (execute inv).run.run { directory := d }
    match result with
    | .ok () => ⟨0, none, c.stdout, some c.stderr, c.directory⟩
    | .error msg => ⟨1, none, c.stdout, some (c.stderr ++ "Error: " ++ msg ++ "\n"), c.directory⟩

/-- The files a command line may read: its configuration, tables, thresholds and cache. -/
def Invocation.inputs (inv : Invocation) : List String :=
  inv.config.toList ++ match inv.command with
    | .optimize o => [o.input.intensities, o.thresholds]
    | .count o => [o.input.intensities, o.thresholds] ++ o.cache.toList

end Phenotyping.CommandLine
