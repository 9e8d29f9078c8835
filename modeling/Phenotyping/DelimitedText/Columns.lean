import Phenotyping.DelimitedText.Error
import Phenotyping.Decimal.Reading
import Phenotyping.Text.Blank
/-! # Named columns

Records of a fixed shape are read by column name: the header names the columns in any
order, columns of other names are skipped, and each wanted column must appear exactly once.
Values are checked as their column is met, left to right, so the first bad value is the one
reported; a repeated or missing column is reported without a field. Text columns take any
text; float columns take the float grammar; count columns take a decimal count below `2^64`
(a leading `+` allowed) or, after `0x`, a hexadecimal one.
-/
namespace Phenotyping.DelimitedText
set_option autoImplicit false

/-- The kinds of column value. -/
inductive CellKind where
  | text
  | float
  | count
  deriving DecidableEq, Repr

/-- A column value. -/
inductive Cell where
  | text (s : String)
  | float (x : Float)
  | count (n : Nat)
  deriving Inhabited

def digitIn (radix : Nat) (c : Char) : Option Nat :=
  let v := if '0' ≤ c ∧ c ≤ '9' then c.toNat - '0'.toNat
    else if 'a' ≤ c ∧ c ≤ 'z' then c.toNat - 'a'.toNat + 10
    else if 'A' ≤ c ∧ c ≤ 'Z' then c.toNat - 'A'.toNat + 10
    else radix
  if v < radix then some v else none

def countLimit : Nat := Nat.pow 2 64 - 1

/-- Digits in a radix, left to right: an invalid digit or a value past the limit stops. -/
def digitsIn (radix : Nat) (acc : Nat) : List Char → Except String Nat
  | [] => .ok acc
  | c :: cs => match digitIn radix c with
    | none => .error "invalid digit found in string"
    | some d =>
      let acc := acc * radix + d
      if acc > countLimit then .error "number too large to fit in target type"
      else digitsIn radix acc cs

def readCountIn (radix : Nat) (cs : List Char) : Except String Nat :=
  match cs with
  | [] => .error "cannot parse integer from empty string"
  | ['+'] | ['-'] => .error "invalid digit found in string"
  | '+' :: ds => digitsIn radix 0 ds
  | ds => digitsIn radix 0 ds

/-- A count column's value: hexadecimal after `0x`, decimal otherwise. -/
def readCount (s : String) : Except String Nat :=
  match s.toList with
  | '0' :: 'x' :: hex => readCountIn 16 hex
  | cs => readCountIn 10 cs

def CellKind.read : CellKind → String → Except String Cell
  | .text, s => .ok (.text s)
  | .float, s => match Decimal.readFloat s with
    | .ok x => .ok (.float x)
    | .error e => .error e.message
  | .count, s => (readCount s).map .count

/-- The wanted columns: names, kinds, and the name of the record they make. -/
structure Shape where
  name : String
  columns : List (String × CellKind)

/-- Reads the cells of a row by header name; `found` holds what was read so far. -/
def assignFrom (shape : Shape) (found : List (String × Cell)) (i : Nat) :
    List (String × String) → Except (Option Nat × String) (List (String × Cell))
  | [] => .ok found
  | (name, text) :: rest =>
    match shape.columns.lookup name with
    | none => assignFrom shape found (i + 1) rest
    | some kind =>
      if (found.lookup name).isSome then .error (none, s!"duplicate field `{name}`")
      else match kind.read text with
        | .error m => .error (some i, m)
        | .ok c => assignFrom shape ((name, c) :: found) (i + 1) rest

def Shape.byName (shape : Shape) (header row : List String) : Except (Option Nat × String) (List Cell) := do
  let found ← assignFrom shape [] 0 (header.zip row)
  shape.columns.mapM fun (name, _) => match found.lookup name with
    | some c => pure c
    | none => throw (none, s!"missing field `{name}`")

/-- The cells of a row in column order, read by position (when the header is unreadable). -/
def Shape.byPosition (shape : Shape) (row : List String) : Except (Option Nat × String) (List Cell) :=
  let n := shape.columns.length
  (shape.columns.zipIdx).mapM fun ((_, kind), i) =>
    match row[i]? with
    | none => .error (none, s!"invalid length {i}, expected struct {shape.name} with {n} elements")
    | some text => (kind.read text).mapError fun m => (some i, m)

/-- Reads every record of a text as cells of a shape: the header's fields name the columns
and every field is trimmed. -/
def readShaped (shape : Shape) (delim : UInt8) (input : List UInt8) :
    Except DelimitedError (List (List Cell)) := do
  let (records, stop) := readRecords delim input
  match records with
  | [] => match stop with
    | some e => throw e.toError
    | none => pure []
  | h :: rows =>
    let header := (decodeFields h).toOption.map (·.map Text.trim)
    let rec go : List RawRecord → Except DelimitedError (List (List Cell))
      | [] => match stop with
        | some e => .error e.toError
        | none => .ok []
      | r :: rs => do
        let texts := (← decodeFields r).map Text.trim
        let shaped := match header with
          | some hs => shape.byName hs texts
          | none => shape.byPosition texts
        let cells ← shaped.mapError fun (f, m) => DelimitedError.deserialize r.position f m
        pure (cells :: (← go rs))
    go rows

end Phenotyping.DelimitedText
