import Phenotyping.CommandLine.Grammar
/-! # The `phenocount` command line

`phenocount [--config FILE] optimize ...` refines one channel's threshold for one sample and
records it; `phenocount [--config FILE] count ...` counts the cells of one sample that match a
criterion. `--config` may also follow the subcommand, and then its value is the one used.
`phenocount help [COMMAND]` prints the help of a command.
-/
namespace Phenotyping.CommandLine
set_option autoImplicit false

def versionLine : String := "phenocount 0.1.0\n"

def configOption : OptionSpec :=
  { name := "config", kind := .path, help := "Optional TOML file with engine settings" }

def sampleOptions : List OptionSpec :=
  [{ name := "intensities", kind := .path, required := true,
     help := "Intensity table (TSV, or CSV by extension) with a header row of channel names" },
   { name := "sample", required := true, help := "The sample the intensity table belongs to" },
   { name := "expected-cells", kind := .count, required := true,
     help := "Number of cells the table must contain, not counting the header row" }]

def optimizeSpec : CommandSpec where
  path := "phenocount optimize"
  about := "Compute a threshold for one channel of one sample and record it"
  options := configOption :: sampleOptions ++
    [{ name := "channel", required := true, help := "The channel to optimize" },
     { name := "seed-fraction", kind := .float, default := some "0.5",
       help := "Fraction of the brightest cells used as the positive seed" },
     { name := "thresholds", kind := .path, required := true,
       help := "Thresholds TSV. Existing records are kept; the optimized one is added or replaced" },
     { name := "origin", default := some "phenocount-optimize",
       help := "Provenance label stored with the new threshold" }]

def countSpec : CommandSpec where
  path := "phenocount count"
  about := "Count the cells of one sample that match a phenotype criterion"
  options := configOption :: sampleOptions ++
    [{ name := "thresholds", kind := .path, required := true,
       help := "Thresholds TSV with `sample channel value` columns" },
     { name := "channels", repeatable := true, commaList := true, required := true,
       help := "Channel table in bit order, comma separated" },
     { name := "channel-table-version", kind := .smallCount, default := some "1",
       help := "Version label of the channel table" },
     { name := "positive", repeatable := true, commaList := true,
       help := "Channels required positive, comma separated" },
     { name := "negative", repeatable := true, commaList := true,
       help := "Channels required negative, comma separated" },
     { name := "feature", help := "Feature id to file the count under. Derived from the criterion if omitted" },
     { name := "cache", kind := .path, help := "Feature-value TSV used as a persistent cache" }]

def helpAbout : String := "Print this message or the help of the given subcommand(s)"

def rootSpec : CommandSpec where
  path := "phenocount"
  about := "Deterministic cell phenotype counts over marker-intensity tables."
  options := [configOption]
  versioned := true
  commands := [("optimize", optimizeSpec.about), ("count", countSpec.about), ("help", helpAbout)]

def helpHelpText : String :=
  helpAbout ++ "\n\nUsage: phenocount help [COMMAND]...\n\nArguments:\n" ++
    "  [COMMAND]...  Print help for the subcommand(s)\n"

/-- The help text that `help` followed by command names asks for: each name must be a
subcommand of the command before it. -/
def helpFor : List String → Except Stop String
  | [] => .ok rootSpec.helpText
  | [n] =>
    if n = "optimize" then .ok optimizeSpec.helpText
    else if n = "count" then .ok countSpec.helpText
    else if n = "help" then .ok helpHelpText
    else .error (.usage .invalidSubcommand)
  | _ :: _ :: _ => .error (.usage .invalidSubcommand)

/-- The options naming a sample's intensity table. -/
structure SampleOptions where
  intensities : String
  sample : String
  expectedCells : Nat
  deriving Repr

/-- The options of `optimize`. -/
structure OptimizeOptions where
  input : SampleOptions
  channel : String
  seedFraction : Float
  thresholds : String
  origin : String
  deriving Repr

/-- The options of `count`. -/
structure CountOptions where
  input : SampleOptions
  thresholds : String
  channels : List String
  tableVersion : Nat
  positive : List String
  negative : List String
  feature : Option String
  cache : Option String
  deriving Repr

/-- A subcommand with its options. -/
inductive Command where
  | optimize (o : OptimizeOptions)
  | count (o : CountOptions)
  deriving Repr

/-- A command line that runs: the configuration file, if any, and the subcommand. -/
structure Invocation where
  config : Option String
  command : Command
  deriving Repr

namespace Given

def text (g : Given) (name : String) : String := ((g.lookup name).bind List.head?).getD ""

def text? (g : Given) (name : String) : Option String := (g.lookup name).bind List.head?

def list (g : Given) (name : String) : List String := (g.lookup name).getD []

def sampleOptions (g : Given) : SampleOptions :=
  ⟨g.text "intensities", g.text "sample", (readCount (g.text "expected-cells")).getD 0⟩

def optimizeOptions (g : Given) : OptimizeOptions :=
  { input := g.sampleOptions
    channel := g.text "channel"
    seedFraction := match Decimal.readFloat (g.text "seed-fraction") with
      | .ok x => x
      | .error _ => 0.5
    thresholds := g.text "thresholds"
    origin := g.text "origin" }

def countOptions (g : Given) : CountOptions :=
  { input := g.sampleOptions
    thresholds := g.text "thresholds"
    channels := g.list "channels"
    tableVersion := (readSmallCount (g.text "channel-table-version")).getD 1
    positive := g.list "positive"
    negative := g.list "negative"
    feature := g.text? "feature"
    cache := g.text? "cache" }

end Given

/-- Reads a command line (without the program name). A subcommand's errors come before an
incomplete option of the top command, which is checked last. -/
def parse (args : List String) : Except Stop Invocation := do
  let (top, sub) ← rootSpec.scan {} args
  match sub with
  | none =>
    if top.given.isEmpty then throw (.usage .missingArgumentOrSubcommand)
    else throw (.usage .missingSubcommand)
  | some (name, rest) =>
    if name = "help" then throw (.help (← helpFor rest))
    let spec := if name = "optimize" then optimizeSpec else countSpec
    let (s, _) ← spec.scan {} rest
    let given ← (spec.complete s.given).mapError .usage
    let top ← top.settle.mapError .usage
    let config := match given.text? "config" with
      | some c => some c
      | none => top.given.text? "config"
    let command := if name = "optimize" then Command.optimize given.optimizeOptions
      else Command.count given.countOptions
    pure ⟨config, command⟩

end Phenotyping.CommandLine
