import Phenotyping.Distinct
/-! # Channel tables

A channel table fixes which bit of a cell mask stands for which channel: the channel at
position `b` of the layout owns bit `b`. A table holds at most 64 channels, each once, and
carries a version that encoded masks and compiled criteria are checked against.
-/
namespace Phenotyping
set_option autoImplicit false

def ChannelTable.capacity : Nat := 64

/-- A versioned list of distinct channels; position is bit. The layout fits in a mask, so every
channel's bit is below 64. -/
structure ChannelTable where
  version : Nat
  layout : List String
  fits : layout.length ≤ ChannelTable.capacity
  deriving DecidableEq, Repr

instance : Inhabited ChannelTable := ⟨⟨0, [], Nat.zero_le _⟩⟩

/-- Why a channel list is no table. -/
inductive ChannelTableError where
  | duplicate (channel : String)
  | capacityExceeded (found : Nat)
  deriving DecidableEq, Repr

namespace ChannelTable

/-- Builds a table: too many channels are refused first, then the first repeated one. -/
def make (version : Nat) (channels : List String) : Except ChannelTableError ChannelTable :=
  if h : channels.length > capacity then .error (.capacityExceeded channels.length)
  else match firstRepeat channels with
    | some c => .error (.duplicate c)
    | none => .ok ⟨version, channels, Nat.le_of_not_gt h⟩

def bitOf (t : ChannelTable) (c : String) : Option Nat := t.layout.idxOf? c

def channelAt (t : ChannelTable) (b : Nat) : Option String := t.layout[b]?

def hasLayout (t : ChannelTable) (cs : List String) : Bool := t.layout == cs

def len (t : ChannelTable) : Nat := t.layout.length

theorem len_le_capacity (t : ChannelTable) : t.len ≤ capacity := t.fits

def isEmpty (t : ChannelTable) : Bool := t.layout.isEmpty

def bits (t : ChannelTable) : List (Nat × String) := t.layout.zipIdx.map fun (c, i) => (i, c)

end ChannelTable

def ChannelTableError.message : ChannelTableError → String
  | .duplicate c => s!"channel '{c}' appears more than once in the channel table"
  | .capacityExceeded n =>
    s!"{n} channels were given, but a bitmask holds at most {ChannelTable.capacity}"

end Phenotyping
