import Phenotyping.Files.Basic
import Phenotyping.Decimal.Reading
import Phenotyping.Text.Blank
/-! # Intensity files

An intensity file has a header naming the channels and one line per cell. Header names are
trimmed; a file without header fields, or with only empty ones, has no header. Each field is
trimmed and read as a float; a field that is not one is reported with its line, its column's
name and its text as written. The cells then form an intensity table, with its own checks.
-/
namespace Phenotyping.Files
set_option autoImplicit false

open DelimitedText

def readCells (path : String) (line : Nat) : List String → List String → Except TableIoError (List Float)
  | [], _ => .ok []
  | _, [] => .ok []
  | f :: fs, c :: cs => match Decimal.readFloat (Text.trim f) with
    | .error _ => .error (.notANumber path line c f)
    | .ok x => (readCells path line fs cs).map (x :: ·)

def readIntensity (path : String) (input : List UInt8) (sample : String) (expected : Nat) :
    Except TableIoError IntensityTable := do
  let (records, stop) := readRecords (delimiterByte path) input
  let (header, rows) := match records with
    | [] => (none, [])
    | h :: rs => (some h, rs)
  let names ← match header with
    | none => pure []
    | some h => (decodeFields h).mapError .delimited
  let channels := names.map Text.trim
  if channels.all (· = "") then throw (.missingHeader path)
  let rec go : List RawRecord → Except TableIoError (List (List Float))
    | [] => match stop with
      | some e => .error (.delimited e.toError)
      | none => .ok []
    | r :: rs => do
      let fields ← (decodeFields r).mapError .delimited
      let cells ← readCells path r.position.line fields channels
      pure (cells :: (← go rs))
  let rows ← go rows
  (IntensityTable.make sample channels channels.length rows expected).mapError .intensity

end Phenotyping.Files
