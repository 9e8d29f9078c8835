import Phenotyping.Files.Basic
import Phenotyping.DelimitedText.Columns
import Phenotyping.DelimitedText.Writer
import Phenotyping.Decimal.Notation
import Phenotyping.Threshold.Store
import Phenotyping.FeatureCache
/-! # Threshold and feature-value files

Threshold files hold `sample`, `channel`, `value` columns and feature-value files hold
`feature`, `sample`, `count` columns, read by header name with every field trimmed. Both are
written with their header before the first record (an empty list writes an empty file),
floats in table notation.
-/
namespace Phenotyping.Files
set_option autoImplicit false

open DelimitedText

def thresholdShape : Shape :=
  ⟨"ThresholdRecord", [("sample", .text), ("channel", .text), ("value", .float)]⟩

def featureShape : Shape :=
  ⟨"FeatureValue", [("feature", .text), ("sample", .text), ("count", .count)]⟩

def thresholdOfCells : List Cell → ThresholdRecord
  | [.text s, .text c, .float v] => ⟨s, c, v⟩
  | _ => default

def featureOfCells : List Cell → FeatureValue
  | [.text f, .text s, .count n] => ⟨f, s, n⟩
  | _ => default

/-- The libraries a record file is written and read with: a reader of delimited text that reads
each row's cells by header name from its trimmed fields, a writer of delimited text, and the
notation of a written float. -/
structure RecordFormat where
  readShaped : Shape → UInt8 → List UInt8 → Except DelimitedError (List (List Cell))
  writeTable : Char → List String → List (List String) → String
  renderFloat : Float → String

namespace RecordFormat

variable (fmt : RecordFormat)

def readThresholds (path : String) (input : List UInt8) : Except TableIoError (List ThresholdRecord) :=
  ((fmt.readShaped thresholdShape (delimiterByte path) input).map (·.map thresholdOfCells)).mapError
    .delimited

def readFeatureValues (path : String) (input : List UInt8) : Except TableIoError (List FeatureValue) :=
  ((fmt.readShaped featureShape (delimiterByte path) input).map (·.map featureOfCells)).mapError
    .delimited

def writeThresholds (path : String) (rs : List ThresholdRecord) : String :=
  fmt.writeTable (delimiterFor path) ["sample", "channel", "value"]
    (rs.map fun r => [r.sample, r.channel, fmt.renderFloat r.value])

def writeFeatureValues (path : String) (vs : List FeatureValue) : String :=
  fmt.writeTable (delimiterFor path) ["feature", "sample", "count"]
    (vs.map fun v => [v.feature, v.sample, toString v.count])

end RecordFormat

def RecordFormat.standard : RecordFormat :=
  ⟨DelimitedText.readShaped, DelimitedText.writeTable, Decimal.Notation.table.render⟩

def readThresholds (path : String) (input : List UInt8) : Except TableIoError (List ThresholdRecord) :=
  RecordFormat.standard.readThresholds path input

def readFeatureValues (path : String) (input : List UInt8) : Except TableIoError (List FeatureValue) :=
  RecordFormat.standard.readFeatureValues path input

def writeThresholds (path : String) (rs : List ThresholdRecord) : String :=
  RecordFormat.standard.writeThresholds path rs

def writeFeatureValues (path : String) (vs : List FeatureValue) : String :=
  RecordFormat.standard.writeFeatureValues path vs

end Phenotyping.Files
