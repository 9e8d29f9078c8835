import Phenotyping.Text.Utf8
/-! # Reading delimited text

Records are separated by line ends (`\n`, `\r` or `\r\n`) and fields by a delimiter byte.
A field that starts with `"` is quoted: up to the next lone `"` it may hold delimiters and
line ends, and `""` stands for one quote; text after the closing quote joins the field. Empty
lines between records are skipped, and a UTF-8 byte order mark at the very start is dropped.
Every record must have as many fields as the first.

Each record is read with its position: its index, and the line and byte where reading it
began. The line is one more than the number of line feeds consumed before: a record that
ends at `\r` leaves the following `\n` to the next read, and skipped empty lines are consumed
by the read of the record after them.
-/
namespace Phenotyping.DelimitedText
set_option autoImplicit false

/-- Where the reading of a record began. -/
structure Position where
  record : Nat
  line : Nat
  byte : Nat
  deriving DecidableEq, Repr, Inhabited

/-- The scanner's state between bytes. -/
inductive Scan where
  | startRecord
  | afterCR
  | startField
  | inField
  | inQuoted
  | quoteInQuoted
  deriving DecidableEq, Repr

/-- One scanned record. -/
structure Scanned where
  fields : List (List UInt8)
  rest : List UInt8
  /-- The record ended at a carriage return, so a line feed right after belongs to it. -/
  endsAtCR : Bool
  consumed : Nat
  lineFeeds : Nat

def quoteByte : UInt8 := 34
def lineFeed : UInt8 := 10
def carriageReturn : UInt8 := 13

def isLineEnd (b : UInt8) : Bool := b == lineFeed || b == carriageReturn

/-- Scans one record from `input`. `field` holds the current field's bytes in reverse and
`fields` the finished fields in reverse; `consumed` and `feeds` count bytes and line feeds. -/
def scan (delim : UInt8) (state : Scan) (fields : List (List UInt8)) (field : List UInt8)
    (consumed feeds : Nat) : List UInt8 → Option Scanned
  | [] =>
    match state with
    | .startRecord | .afterCR => none
    | _ => some ⟨(field.reverse :: fields).reverse, [], false, consumed, feeds⟩
  | b :: bs =>
    let consumed := consumed + 1
    let feeds := if b == lineFeed then feeds + 1 else feeds
    let finish (f : List UInt8) : Option Scanned :=
      some ⟨(f.reverse :: fields).reverse, bs, b == carriageReturn, consumed, feeds⟩
    -- a state that acts on a byte before it is consumed resolves to the state that consumes it
    let state : Scan := match state with
      | .afterCR => if b == lineFeed then .afterCR else .startRecord
      | s => s
    let state : Scan := match state with
      | .startRecord => if isLineEnd b then .startRecord else .startField
      | s => s
    match state with
    | .afterCR | .startRecord => scan delim .startRecord fields [] consumed feeds bs
    | .startField =>
      if b == quoteByte then scan delim .inQuoted fields [] consumed feeds bs
      else if b == delim then scan delim .startField ([] :: fields) [] consumed feeds bs
      else if isLineEnd b then finish []
      else scan delim .inField fields [b] consumed feeds bs
    | .inField =>
      if b == delim then scan delim .startField (field.reverse :: fields) [] consumed feeds bs
      else if isLineEnd b then finish field
      else scan delim .inField fields (b :: field) consumed feeds bs
    | .inQuoted =>
      if b == quoteByte then scan delim .quoteInQuoted fields field consumed feeds bs
      else scan delim .inQuoted fields (b :: field) consumed feeds bs
    | .quoteInQuoted =>
      if b == quoteByte then scan delim .inQuoted fields (b :: field) consumed feeds bs
      else if b == delim then scan delim .startField (field.reverse :: fields) [] consumed feeds bs
      else if isLineEnd b then finish field
      else scan delim .inField fields (b :: field) consumed feeds bs

/-- A record's raw fields with its position. -/
structure RawRecord where
  position : Position
  fields : List (List UInt8)
  deriving Inhabited

/-- What stops the reading of records. -/
inductive ReadError where
  | unequalLengths (position : Position) (expected found : Nat)
  deriving DecidableEq, Repr

/-- Reads up to `fuel` records, each checked against the field count of the first. -/
def readFrom (delim : UInt8) : Nat → Scan → Option Nat → Position → List UInt8 →
    List RawRecord × Option ReadError
  | 0, _, _, _, _ => ([], none)
  | fuel + 1, state, expected, pos, input =>
    match scan delim state [] [] 0 0 input with
    | none => ([], none)
    | some s =>
      let n := s.fields.length
      match expected with
      | some e =>
        if e ≠ n then ([], some (.unequalLengths pos e n)) else
          let next : Position := ⟨pos.record + 1, pos.line + s.lineFeeds, pos.byte + s.consumed⟩
          let (rs, err) := readFrom delim fuel (if s.endsAtCR then .afterCR else .startRecord)
            expected next s.rest
          (⟨pos, s.fields⟩ :: rs, err)
      | none =>
        let next : Position := ⟨pos.record + 1, pos.line + s.lineFeeds, pos.byte + s.consumed⟩
        let (rs, err) := readFrom delim fuel (if s.endsAtCR then .afterCR else .startRecord)
          (some n) next s.rest
        (⟨pos, s.fields⟩ :: rs, err)

def byteOrderMark : List UInt8 := [0xEF, 0xBB, 0xBF]

/-- All records of a text, up to the first record whose length differs from the first's. -/
def readRecords (delim : UInt8) (input : List UInt8) : List RawRecord × Option ReadError :=
  let (skipped, body) :=
    if input.take 3 = byteOrderMark then (3, input.drop 3) else (0, input)
  readFrom delim (body.length + 1) .startRecord none ⟨0, 1, skipped⟩ body

end Phenotyping.DelimitedText
