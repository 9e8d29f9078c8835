import Phenotyping.Mask
import Phenotyping.ChannelTable
import Phenotyping.CellMasks
import Phenotyping.Text.NaturalOrder
/-! # Phenotype criteria

A criterion names the channels a cell must be positive for and those it must be negative
for; each side is a set, kept sorted in code point order. Its name lists the positive
channels with `+`, then the negative ones with `-`, each side in natural order, separated by
single spaces; the empty criterion is named `all cells`.

Compiled against a channel table, a criterion becomes two masks, and a cell matches when it
has every positive bit and no negative bit. Compiling refuses a channel on both sides (all
such channels, in code point order) before an unknown channel (the first of the positive
side, then of the negative side). Counting checks that criterion and masks were made for the
counting table: the criterion first, and of each its version before its channel order.

A `Matcher` counts chunk by chunk, summing the chunks' counts, and lists the matching cells
piece by piece; `CompiledCriterion.count` and `matchingCells` do the same in one piece.
-/
namespace Phenotyping
set_option autoImplicit false

def insertSorted (x : String) : List String → List String
  | [] => [x]
  | y :: ys => if x < y then x :: y :: ys else if x = y then y :: ys else y :: insertSorted x ys

/-- The set of a list's elements, ascending in code point order. -/
def sortedSet (xs : List String) : List String := xs.foldl (fun acc x => insertSorted x acc) []

/-- Channels required positive and negative, each an ascending set. -/
structure Criterion where
  positive : List String
  negative : List String
  deriving DecidableEq, Repr, Inhabited

/-- Why a criterion cannot be compiled or counted. -/
inductive MatchError where
  | contradictoryCriterion (channels : List String)
  | unknownChannel (channel : String)
  | tableVersionMismatch (expected found : Nat)
  | channelOrderMismatch (version : Nat)
  deriving DecidableEq, Repr

def MatchError.message : MatchError → String
  | .contradictoryCriterion cs =>
    "criterion requires channels to be both positive and negative: " ++ ", ".intercalate cs
  | .unknownChannel c => s!"criterion names channel '{c}', which is not in the channel table"
  | .tableVersionMismatch e f =>
    s!"bitmasks were encoded against channel table v{f}, the matcher uses v{e}"
  | .channelOrderMismatch v =>
    s!"bitmasks or criterion follow a different channel order under channel table v{v}"

/-- A criterion as masks over one table. -/
structure CompiledCriterion where
  positiveMask : Mask
  negativeMask : Mask
  tableVersion : Nat
  channels : List String
  deriving Inhabited

namespace Criterion

/-- The criterion of two channel lists (repeats collapse). -/
def ofLists (pos neg : List String) : Criterion := ⟨sortedSet pos, sortedSet neg⟩

def isEmpty (c : Criterion) : Bool := c.positive.isEmpty && c.negative.isEmpty

def naturalLe (a b : String) : Bool := Text.compareNatural a b != .gt

def canonicalName (c : Criterion) : String :=
  if c.isEmpty then "all cells" else
    let pos := (c.positive.mergeSort naturalLe).map (· ++ "+")
    let neg := (c.negative.mergeSort naturalLe).map (· ++ "-")
    " ".intercalate (pos ++ neg)

def overlap (c : Criterion) : List String := c.positive.filter (· ∈ c.negative)

/-- The mask of a set of channels, or the first channel the table lacks. -/
def maskOf (t : ChannelTable) : List String → Except MatchError Mask
  | [] => .ok Mask.empty
  | c :: cs => match t.bitOf c with
    | none => .error (.unknownChannel c)
    | some b => (maskOf t cs).map (·.set b)

def compile (t : ChannelTable) (c : Criterion) : Except MatchError CompiledCriterion :=
  if c.overlap ≠ [] then .error (.contradictoryCriterion c.overlap) else do
    let pos ← maskOf t c.positive
    let neg ← maskOf t c.negative
    pure ⟨pos, neg, t.version, t.layout⟩

end Criterion

namespace CompiledCriterion

/-- Whether a cell's mask has every positive bit and no negative bit. -/
def admits (cc : CompiledCriterion) (m : Mask) : Bool :=
  (m.bits &&& cc.positiveMask.bits) == cc.positiveMask.bits && (m.bits &&& cc.negativeMask.bits) == 0

def checkStamp (t : ChannelTable) (version : Nat) (channels : List String) : Except MatchError Unit :=
  if version ≠ t.version then .error (.tableVersionMismatch t.version version)
  else if !t.hasLayout channels then .error (.channelOrderMismatch t.version)
  else .ok ()

/-- Checks criterion, then masks, against the counting table. -/
def checkLayout (t : ChannelTable) (cc : CompiledCriterion) (a : CellMasks) : Except MatchError Unit := do
  checkStamp t cc.tableVersion cc.channels
  checkStamp t a.tableVersion a.channels

def count (t : ChannelTable) (cc : CompiledCriterion) (a : CellMasks) : Except MatchError Nat := do
  checkLayout t cc a
  pure (a.masks.filter cc.admits).length

/-- The matching cells' indices, ascending. -/
def matchingCells (t : ChannelTable) (cc : CompiledCriterion) (a : CellMasks) :
    Except MatchError (List Nat) := do
  checkLayout t cc a
  pure ((a.masks.zipIdx.filter fun p => cc.admits p.1).map Prod.snd)

end CompiledCriterion

def Criterion.count (t : ChannelTable) (c : Criterion) (a : CellMasks) : Except MatchError Nat := do
  let cc ← c.compile t
  cc.count t a

/-- A list cut into consecutive chunks of `k` elements, the last one possibly shorter; a
chunk size of 0 acts as 1. -/
def chunksOf {α : Type} (k : Nat) : List α → List (List α)
  | [] => []
  | x :: xs => (x :: xs.take (k - 1)) :: chunksOf k (xs.drop (k - 1))
termination_by xs => xs.length
decreasing_by simp only [List.length_drop, List.length_cons]; omega

/-- A matcher works over one table and takes the cells a chunk at a time. -/
structure Matcher where
  table : ChannelTable
  chunkSize : Nat
  deriving Inhabited

namespace Matcher

/-- A matcher for a table; a chunk size of 0 is taken as 1. -/
def make (t : ChannelTable) (chunkSize : Nat) : Matcher := ⟨t, max chunkSize 1⟩

@[simp] theorem make_table (t : ChannelTable) (chunkSize : Nat) : (make t chunkSize).table = t := rfl

def compile (m : Matcher) (c : Criterion) : Except MatchError CompiledCriterion :=
  c.compile m.table

/-- The number of matching cells: the matches of each chunk, summed. -/
def count (m : Matcher) (cc : CompiledCriterion) (a : CellMasks) : Except MatchError Nat := do
  CompiledCriterion.checkLayout m.table cc a
  pure ((chunksOf m.chunkSize a.masks).foldr (fun chunk n => (chunk.filter cc.admits).length + n) 0)

def countCriterion (m : Matcher) (c : Criterion) (a : CellMasks) : Except MatchError Nat := do
  let cc ← m.compile c
  m.count cc a

/-- The matching cells' indices: the numbered cells are taken in pieces of at least a chunk,
each piece filtered, and the pieces' matches joined in order. -/
def matchingCells (m : Matcher) (cc : CompiledCriterion) (a : CellMasks) :
    Except MatchError (List Nat) := do
  CompiledCriterion.checkLayout m.table cc a
  pure ((chunksOf m.chunkSize a.masks.zipIdx).flatMap fun piece =>
    (piece.filter fun p => cc.admits p.1).map Prod.snd)

end Matcher

end Phenotyping
