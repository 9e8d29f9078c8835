import Phenotyping.Toml.Report
import Phenotyping.Separation.Intermeans
import Phenotyping.Decimal.Notation
import Phenotyping.Storage.OsError
import Phenotyping.Text.Quoted
/-! # Engine configuration

The engine's settings come from a TOML document with three optional tables: `[optimizer]`
(`max_iterations`, `tolerance`), `[thresholds]` (`drift_tolerance`) and `[compute]`
(`chunk_size`). Missing settings take their defaults (100, 1e-9, 1e-6, 4096) and unknown
tables and keys are ignored. A section may also be an inline table, or an array that gives
its settings by position (items past the last setting are ignored); a date or time given as
a section gives no settings.

A setting of the wrong kind makes the document unreadable, and the report names what was
found and what was expected, standing where the value stands (or, for a table that no
header names, where its key stands). Counts take non-negative integers; tolerances take
floats, or integers as the nearest float. Settings are read in the order they stand, so the
first wrong one is reported. A read configuration is then validated: at least one
iteration, finite non-negative tolerances, chunks of at least one cell. Written back, it is
the three tables in that order, floats in positional notation.
-/
namespace Phenotyping
set_option autoImplicit false

/-- The engine's settings. -/
structure EngineConfig where
  refinement : Separation.RefinementConfig := {}
  driftTolerance : Float := 1e-6
  chunkSize : Nat := 4096
  deriving Inhabited

/-- Why a configuration is not usable. -/
inductive ConfigError where
  | unreadable (e : Storage.OsError)
  | malformed (report : String)
  | invalid (detail : String)
  deriving DecidableEq, Repr

def ConfigError.message : ConfigError → String
  | .unreadable e => s!"Failed to read configuration file: {e.message}"
  | .malformed r => "Failed to parse TOML configuration: " ++ r
  | .invalid d => s!"Invalid configuration: {d}"

/-- A float as a setting error shows it: as in messages, with `.0` added to a finite value
written without a point. -/
def floatShown (x : Float) : String :=
  let s := Decimal.Notation.message.render x
  if Binary64.isFinite x && !s.toList.contains '.' then s ++ ".0" else s

namespace EngineConfig

open Toml

def found : Item → String
  | .scalar (.string s) _ => "string " ++ Text.quoted s
  | .scalar (.integer i) _ => s!"integer `{i}`"
  | .scalar (.float x) _ =>
    let shown := floatShown x
    s!"floating point `{shown}`"
  | .scalar (.boolean b) _ => s!"boolean `{b}`"
  | .scalar (.datetime _) _ => "map"
  | .array _ _ => "sequence"
  | .table _ _ => "map"

def countSetting (it : Item) : Except String Nat :=
  match it with
  | .scalar (.integer i) _ =>
    if i ≥ 0 then .ok i.toNat else .error s!"invalid value: integer `{i}`, expected usize"
  | _ =>
    let what := found it
    .error s!"invalid type: {what}, expected usize"

/-- A float setting: a float, or an integer taken as the nearest float. -/
def floatSetting (it : Item) : Except String Float :=
  match it with
  | .scalar (.float x) _ => .ok x
  | .scalar (.integer i) _ => .ok (Decimal.toFloat (i < 0) ⟨i.natAbs, 0⟩)
  | _ =>
    let what := found it
    .error s!"invalid type: {what}, expected f64"

/-- A setting of a section: its key, and how its value changes a configuration. -/
structure Setting where
  key : String
  apply : Item → Except String (EngineConfig → EngineConfig)

/-- A section: its key, the name of what it reads as, and its settings in order. -/
structure Section where
  key : String
  reads : String
  settings : List Setting

def sections : List Section :=
  [⟨"optimizer", "OptimizerConfig",
    [⟨"max_iterations", fun it => (countSetting it).map fun n c =>
        { c with refinement := { c.refinement with maxIterations := n } }⟩,
     ⟨"tolerance", fun it => (floatSetting it).map fun x c =>
        { c with refinement := { c.refinement with tolerance := x } }⟩]⟩,
   ⟨"thresholds", "ThresholdConfig",
    [⟨"drift_tolerance", fun it => (floatSetting it).map fun x c => { c with driftTolerance := x }⟩]⟩,
   ⟨"compute", "ComputeConfig",
    [⟨"chunk_size", fun it => (countSetting it).map fun n c => { c with chunkSize := n }⟩]⟩]

/-- Applies a setting to a configuration; a failure stands at the value, or at `fallback`. -/
def Setting.onto (st : Setting) (v : Item) (fallback : Option Span) (c : EngineConfig) :
    Except Report EngineConfig :=
  match st.apply v with
  | .ok f => .ok (f c)
  | .error m => .error ⟨m, v.span?.orElse fun _ => fallback⟩

def Section.read (s : Section) (it : Item) (c : EngineConfig) : Except Report EngineConfig :=
  match it with
  | .table es _ => es.foldlM (fun c (k, v) =>
      match s.settings.find? (·.key == k.name) with
      | none => .ok c
      | some st => st.onto v (some k.span) c) c
  | .array vs _ => (s.settings.zip vs).foldlM (fun c (st, v) => st.onto v none c) c
  | .scalar (.datetime _) _ => .ok c
  | _ =>
    let what := found it
    .error ⟨s!"invalid type: {what}, expected struct {s.reads}", it.span?⟩

/-- Reads the settings of a document's top-level table; a failure with no place of its own
stands where its section does, or at the section's key. -/
def ofDocument (root : Item) : Except Report EngineConfig :=
  match root with
  | .table es _ => es.foldlM (fun c (k, v) =>
      match sections.find? (·.key == k.name) with
      | none => .ok c
      | some s => match s.read v c with
        | .ok c => .ok c
        | .error r => .error { r with span := r.span.orElse fun _ => v.span?.orElse fun _ => some k.span }) {}
  | _ => .ok {}

/-- Whether a float is finite and not below zero (`-0.0` passes). -/
def finiteNonNegative (x : Float) : Bool := Binary64.isFinite x && x ≥ 0

def validate (c : EngineConfig) : Except ConfigError Unit :=
  if c.refinement.maxIterations = 0 then .error (.invalid "optimizer.max_iterations must be at least 1")
  else if !finiteNonNegative c.refinement.tolerance then
    .error (.invalid "optimizer.tolerance must be a finite, non-negative number")
  else if !finiteNonNegative c.driftTolerance then
    .error (.invalid "thresholds.drift_tolerance must be a finite, non-negative number")
  else if c.chunkSize = 0 then .error (.invalid "compute.chunk_size must be at least 1")
  else .ok ()

def ofToml (text : String) : Except ConfigError EngineConfig := do
  let root ← match Toml.parse text with
    | .ok r => pure r
    | .error e => throw (.malformed ((e.report text).render text))
  let c ← match ofDocument root with
    | .ok c => pure c
    | .error r => throw (.malformed (r.render text))
  validate c
  pure c

def toToml (c : EngineConfig) : String :=
  let f := Decimal.Notation.config.render
  s!"[optimizer]\nmax_iterations = {c.refinement.maxIterations}\ntolerance = {f c.refinement.tolerance}\n\n" ++
  s!"[thresholds]\ndrift_tolerance = {f c.driftTolerance}\n\n[compute]\nchunk_size = {c.chunkSize}\n"

end EngineConfig
end Phenotyping
