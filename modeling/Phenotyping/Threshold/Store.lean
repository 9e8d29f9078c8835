import Phenotyping.Binary64
import Phenotyping.Decimal.Notation
import Phenotyping.HashOrder
import Phenotyping.Text.NaturalOrder
/-! # The threshold store

For each (sample, channel) the store keeps a run counter and at most one current threshold.
Every run takes the next generation of its key when it begins; a finished run commits its
value, and the value with the greatest generation stays: a commit whose generation is below
the stored one is discarded as stale. Non-finite values are refused (the run's generation is
used up all the same). A replacement reports how far the threshold moved and whether that
exceeds the store's drift tolerance.
-/
namespace Phenotyping
set_option autoImplicit false

/-- A (sample, channel) pair. -/
structure ThresholdKey where
  sample : String
  channel : String
  deriving DecidableEq, Repr, Inhabited

/-- A stored threshold with its provenance. -/
structure ThresholdEntry where
  value : Float
  origin : String
  generation : Nat
  deriving Inhabited

/-- A key's run counter and current threshold. -/
structure KeyState where
  issued : Nat := 0
  current : Option ThresholdEntry := none
  deriving Inhabited

/-- A run that has begun: its key and generation. -/
structure RunTicket where
  key : ThresholdKey
  generation : Nat
  deriving DecidableEq, Repr, Inhabited

/-- What a commit did. -/
inductive ThresholdUpdate where
  | inserted
  | replaced (previous : ThresholdEntry) (delta : Float) (exceeded : Bool)
  | stale (current : ThresholdEntry) (discarded : Float)
  deriving Inhabited

/-- Why a threshold is unavailable or refused. -/
inductive ThresholdError where
  | missingThreshold (sample channel : String)
  | nonFiniteValue (sample channel : String) (value : Float)
  deriving Inhabited

def ThresholdError.message : ThresholdError → String
  | .missingThreshold s c => s!"no threshold is recorded for channel '{c}' on sample '{s}'"
  | .nonFiniteValue s c v =>
    s!"threshold {Decimal.Notation.message.render v} for channel '{c}' on sample '{s}' is not finite"

/-- A threshold as listed and written to files. -/
structure ThresholdRecord where
  sample : String
  channel : String
  value : Float
  deriving Inhabited

/-- The keys in first-use order with their states, and the drift tolerance. -/
structure ThresholdStore where
  driftTolerance : Float
  states : List (ThresholdKey × KeyState)
  deriving Inhabited

namespace ThresholdStore

def empty (driftTolerance : Float) : ThresholdStore := ⟨driftTolerance, []⟩

/-- The state of a key; a key never used has issued nothing and holds nothing. -/
def stateOf (s : ThresholdStore) (k : ThresholdKey) : KeyState :=
  ((s.states.find? fun p => p.1 = k).map Prod.snd).getD {}

def setStates (k : ThresholdKey) (ks : KeyState) : List (ThresholdKey × KeyState) →
    List (ThresholdKey × KeyState)
  | [] => [(k, ks)]
  | p :: ps => if p.1 = k then (k, ks) :: ps else p :: setStates k ks ps

def setState (s : ThresholdStore) (k : ThresholdKey) (ks : KeyState) : ThresholdStore :=
  { s with states := setStates k ks s.states }

/-- Begins a run on a key: the key's counter goes up by one and the ticket carries it. -/
def beginRun (s : ThresholdStore) (sample channel : String) : RunTicket × ThresholdStore :=
  let k : ThresholdKey := ⟨sample, channel⟩
  let ks := s.stateOf k
  let g := ks.issued + 1
  (⟨k, g⟩, s.setState k { ks with issued := g })

/-- The outcome of committing `value` from a run of generation `g` onto a current entry. -/
def settle (tolerance : Float) (current : Option ThresholdEntry) (incoming : ThresholdEntry) :
    ThresholdUpdate × ThresholdEntry :=
  match current with
  | none => (.inserted, incoming)
  | some cur =>
    if cur.generation > incoming.generation then (.stale cur incoming.value, cur)
    else
      let delta := Binary64.abs (incoming.value - cur.value)
      (.replaced cur delta (delta > tolerance), incoming)

/-- Commits a run's value. A non-finite value is refused and leaves the store as it was. -/
def commit (s : ThresholdStore) (t : RunTicket) (value : Float) (origin : String) :
    Except ThresholdError (ThresholdUpdate × ThresholdStore) :=
  if !Binary64.isFinite value then .error (.nonFiniteValue t.key.sample t.key.channel value)
  else
    let ks := s.stateOf t.key
    let (update, entry) := settle s.driftTolerance ks.current ⟨value, origin, t.generation⟩
    .ok (update, s.setState t.key { ks with current := some entry })

/-- Begins a run and commits it at once. The run's generation is used up even when the
value is refused, so the store is returned in both cases. -/
def record (s : ThresholdStore) (sample channel : String) (value : Float) (origin : String) :
    ThresholdStore × Except ThresholdError ThresholdUpdate :=
  let (t, s) := s.beginRun sample channel
  match s.commit t value origin with
  | .ok (u, s') => (s', .ok u)
  | .error e => (s, .error e)

def get (s : ThresholdStore) (sample channel : String) : Option ThresholdEntry :=
  (s.stateOf ⟨sample, channel⟩).current

/-- Natural order on records: by sample, then by channel. -/
def recordLe (a b : ThresholdRecord) : Bool :=
  ((Text.compareNatural a.sample b.sample).then (Text.compareNatural a.channel b.channel)) != .gt

/-- Every current threshold once, in natural order of sample, then channel; records whose
keys tie come in the order the map visits them. -/
def records (s : ThresholdStore) : List ThresholdRecord :=
  let held := s.states.filterMap fun (k, ks) => ks.current.map fun e => ⟨k.sample, k.channel, e.value⟩
  (hashOrder held).mergeSort recordLe

end ThresholdStore
end Phenotyping
