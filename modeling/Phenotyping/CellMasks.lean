import Phenotyping.Mask
import Phenotyping.ChannelTable
import Phenotyping.Intensity
import Phenotyping.Threshold.Snapshot
/-! # Encoding cells as masks

Gating turns a sample's intensities into one mask per cell: bit `b` is set exactly when the
cell's value in the column of the table's channel `b` is at least that channel's threshold
(an IEEE comparison, so `-0.0 ≥ 0.0`). The thresholds must be a snapshot of the same sample,
frozen against the same table version and channel order; columns outside the table are
ignored and the order of the columns does not matter.
-/
namespace Phenotyping
set_option autoImplicit false

/-- One sample's cells as masks over a table. -/
structure CellMasks where
  sample : String
  tableVersion : Nat
  channels : List String
  generations : List Nat
  masks : List Mask
  deriving Inhabited

/-- Why a sample cannot be encoded. -/
inductive EncodeError where
  | missingThreshold (sample channel : String)
  | missingColumn (sample channel : String)
  | sampleMismatch (expected found : String)
  | tableVersionMismatch (expected found : Nat)
  | channelOrderMismatch (version : Nat)
  deriving DecidableEq, Repr

def EncodeError.message : EncodeError → String
  | .missingThreshold s c => s!"no threshold for channel '{c}' on sample '{s}'"
  | .missingColumn s c => s!"intensity table for sample '{s}' has no column for channel '{c}'"
  | .sampleMismatch e f => s!"thresholds belong to sample '{f}', but the intensities belong to '{e}'"
  | .tableVersionMismatch e f =>
    s!"thresholds were frozen against channel table v{f}, the encoder uses v{e}"
  | .channelOrderMismatch v =>
    s!"thresholds were frozen against a different channel order under channel table v{v}"

namespace CellMasks

def ofRaw (sample : String) (t : ChannelTable) (masks : List Mask) : CellMasks :=
  ⟨sample, t.version, t.layout, [], masks⟩

def len (a : CellMasks) : Nat := a.masks.length

end CellMasks

/-- What gates one bit: the bit, the column read, and the threshold. -/
structure BitGate where
  bit : Nat
  column : Nat
  threshold : Float

namespace CellMasks

def gates (t : ChannelTable) (table : IntensityTable) (snap : ThresholdSnapshot) :
    List (Nat × String) → Except EncodeError (List BitGate)
  | [] => .ok []
  | (b, c) :: rest =>
    match snap.values[b]? with
    | none => .error (.missingThreshold table.sample c)
    | some thr => match table.columnIndex c with
      | none => .error (.missingColumn table.sample c)
      | some j => (gates t table snap rest).map (⟨b, j, thr⟩ :: ·)

def gateCell (gs : List BitGate) (row : List Float) : Mask :=
  gs.foldl (fun m g => if row.getD g.column 0 ≥ g.threshold then m.set g.bit else m) Mask.empty

/-- Encodes a sample against a table with a snapshot of its thresholds. -/
def encode (t : ChannelTable) (table : IntensityTable) (snap : ThresholdSnapshot) :
    Except EncodeError CellMasks :=
  if snap.sample ≠ table.sample then .error (.sampleMismatch table.sample snap.sample)
  else if snap.tableVersion ≠ t.version then .error (.tableVersionMismatch t.version snap.tableVersion)
  else if !t.hasLayout snap.channels then .error (.channelOrderMismatch t.version)
  else (gates t table snap t.bits).map fun gs =>
    ⟨table.sample, t.version, t.layout, snap.generations, table.rows.map (gateCell gs)⟩

end CellMasks
end Phenotyping
