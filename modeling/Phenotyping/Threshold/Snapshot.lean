import Phenotyping.ChannelTable
import Phenotyping.Threshold.Store
/-! # Threshold snapshots

A snapshot freezes, for one sample, the current threshold of every channel of a table in bit
order, with the generations they came from and the table's version and layout. It fails at
the first channel, in bit order, that has no threshold.
-/
namespace Phenotyping
set_option autoImplicit false

/-- One sample's thresholds, one per bit of a table. -/
structure ThresholdSnapshot where
  sample : String
  tableVersion : Nat
  channels : List String
  values : List Float
  generations : List Nat
  deriving Inhabited

namespace ThresholdStore

/-- The entries of the given channels for a sample, or the first channel without one. -/
def entriesFor (s : ThresholdStore) (sample : String) :
    List String → Except ThresholdError (List ThresholdEntry)
  | [] => .ok []
  | c :: cs => match s.get sample c with
    | none => .error (.missingThreshold sample c)
    | some e => (entriesFor s sample cs).map (e :: ·)

def snapshot (s : ThresholdStore) (sample : String) (t : ChannelTable) :
    Except ThresholdError ThresholdSnapshot :=
  (s.entriesFor sample t.layout).map fun es =>
    ⟨sample, t.version, t.layout, es.map (·.value), es.map (·.generation)⟩

end ThresholdStore
end Phenotyping
