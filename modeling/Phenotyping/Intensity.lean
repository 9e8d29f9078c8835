import Phenotyping.Binary64
import Phenotyping.Distinct
/-! # Intensity tables

One sample's measurements: a row per cell and a column per channel, every value finite.
Building a table checks, in this order, that the matrix has one column per channel name,
that it has the expected number of cells, that no name is given twice, and that every value
is finite (reporting the first offending value in row order).
-/
namespace Phenotyping
set_option autoImplicit false

/-- The intensities of one sample: `rows[i][j]` is cell `i` in the column named `channels[j]`. -/
structure IntensityTable where
  sample : String
  channels : List String
  rows : List (List Float)
  deriving Inhabited

/-- Why a matrix is no intensity table. -/
inductive IntensityError where
  | cellCountMismatch (sample : String) (expected found : Nat)
  | columnCountMismatch (expected found : Nat)
  | duplicateColumn (channel : String)
  | nonFinite (row : Nat) (channel : String)
  deriving DecidableEq, Repr

def IntensityError.message : IntensityError → String
  | .cellCountMismatch s e f =>
    s!"sample '{s}' has {f} cells, but {e} were expected. A header row counted as a cell is the usual cause."
  | .columnCountMismatch e f =>
    s!"intensity matrix has {f} columns, but {e} channel names were given"
  | .duplicateColumn c => s!"channel '{c}' names more than one intensity column"
  | .nonFinite r c => s!"non-finite intensity at cell {r}, channel '{c}'"

namespace IntensityTable

/-- The first non-finite value in row order, as (row, column), from row `start` on. -/
def firstNonFinite (start : Nat) : List (List Float) → Option (Nat × Nat)
  | [] => none
  | r :: rs => match r.findIdx? (fun v => !Binary64.isFinite v) with
    | some j => some (start, j)
    | none => firstNonFinite (start + 1) rs

def make (sample : String) (channels : List String) (columns : Nat) (rows : List (List Float))
    (expected : Nat) : Except IntensityError IntensityTable :=
  if columns ≠ channels.length then .error (.columnCountMismatch channels.length columns)
  else if rows.length ≠ expected then .error (.cellCountMismatch sample expected rows.length)
  else match firstRepeat channels with
    | some c => .error (.duplicateColumn c)
    | none => match firstNonFinite 0 rows with
      | some (i, j) => .error (.nonFinite i (channels.getD j ""))
      | none => .ok ⟨sample, channels, rows⟩

def numCells (t : IntensityTable) : Nat := t.rows.length

def columnIndex (t : IntensityTable) (c : String) : Option Nat := t.channels.idxOf? c

def columnAt (t : IntensityTable) (j : Nat) : List Float := t.rows.map fun r => r.getD j 0

def column (t : IntensityTable) (c : String) : Option (List Float) :=
  (t.columnIndex c).map t.columnAt

end IntensityTable
end Phenotyping
