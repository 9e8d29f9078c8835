import Phenotyping.HashOrder
import Phenotyping.Text.NaturalOrder
/-! # The feature cache

A feature value is a count filed under a (feature, sample) key. The cache stores at most one
value per key: the first one put. A later put of the same key changes nothing and reports
both the stored and the attempted value. Listing gives each stored value once, in natural
order of feature, then sample.
-/
namespace Phenotyping
set_option autoImplicit false

/-- A count of cells with a feature in a sample. -/
structure FeatureValue where
  feature : String
  sample : String
  count : Nat
  deriving DecidableEq, Repr, Inhabited

/-- A put that found its key taken. -/
structure Conflict where
  existing : FeatureValue
  attempted : FeatureValue
  deriving DecidableEq, Repr, Inhabited

def Conflict.disagrees (c : Conflict) : Bool := c.existing.count != c.attempted.count

/-- What a put did. -/
inductive PutOutcome where
  | stored
  | alreadyComputed (conflict : Conflict)
  deriving DecidableEq, Repr, Inhabited

/-- Stored values, in the order they were first put. -/
structure FeatureCache where
  entries : List FeatureValue := []
  deriving Inhabited

namespace FeatureCache

def get (c : FeatureCache) (feature sample : String) : Option FeatureValue :=
  c.entries.find? fun v => v.feature = feature ∧ v.sample = sample

def put (c : FeatureCache) (v : FeatureValue) : PutOutcome × FeatureCache :=
  match c.get v.feature v.sample with
  | some e => (.alreadyComputed ⟨e, v⟩, c)
  | none => (.stored, ⟨c.entries ++ [v]⟩)

def len (c : FeatureCache) : Nat := c.entries.length

/-- Natural order on values: by feature, then by sample. -/
def valueLe (a b : FeatureValue) : Bool :=
  ((Text.compareNatural a.feature b.feature).then (Text.compareNatural a.sample b.sample)) != .gt

/-- Every stored value once, in natural order; values whose keys tie come in the order the
map visits them. -/
def values (c : FeatureCache) : List FeatureValue := (hashOrder c.entries).mergeSort valueLe

/-- Puts values in order into an empty cache, collecting the conflicts in order. -/
def ofValuesFrom (c : FeatureCache) : List FeatureValue → FeatureCache × List Conflict
  | [] => (c, [])
  | v :: vs =>
    let (o, c) := c.put v
    let (c, rest) := ofValuesFrom c vs
    match o with
    | .stored => (c, rest)
    | .alreadyComputed k => (c, k :: rest)

def ofValues (vs : List FeatureValue) : FeatureCache × List Conflict := ofValuesFrom {} vs

end FeatureCache
end Phenotyping
