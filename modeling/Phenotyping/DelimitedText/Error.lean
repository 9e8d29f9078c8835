import Phenotyping.DelimitedText.Reader
import Phenotyping.Storage.OsError
/-! # Errors of delimited text

What can go wrong below the level of a table's meaning: a file that cannot be opened or read, a record
of the wrong length, a field that is not UTF-8, and a field that does not fit its column.
Each names where the reading of its record began.
-/
namespace Phenotyping.DelimitedText
set_option autoImplicit false

/-- A failure to read delimited text. -/
inductive DelimitedError where
  | io (e : Storage.OsError)
  | unequalLengths (position : Position) (expected found : Nat)
  | utf8 (position : Position) (field validUpTo : Nat)
  | deserialize (position : Position) (field : Option Nat) (reason : String)
  deriving DecidableEq, Repr, Inhabited

def DelimitedError.message : DelimitedError → String
  | .io e => e.message
  | .unequalLengths p e f =>
    s!"CSV error: record {p.record} (line: {p.line}, byte: {p.byte}): found record with {f} fields, but the previous record has {e} fields"
  | .utf8 p f v =>
    s!"CSV parse error: record {p.record} (line {p.line}, field: {f}, byte: {p.byte}): invalid utf-8: invalid UTF-8 in field {f} near byte index {v}"
  | .deserialize p f r =>
    let field := match f with | some i => s!"field {i}: " | none => ""
    s!"CSV deserialize error: record {p.record} (line: {p.line}, byte: {p.byte}): {field}{r}"

def ReadError.toError : ReadError → DelimitedError
  | .unequalLengths p e f => .unequalLengths p e f

/-- The fields of a record as texts, or the first field that is not UTF-8. -/
def decodeFields (r : RawRecord) : Except DelimitedError (List String) :=
  let rec go (i : Nat) : List (List UInt8) → Except DelimitedError (List String)
    | [] => .ok []
    | f :: fs => match Text.decodeUtf8 f with
      | .error v => .error (.utf8 r.position i v)
      | .ok s => (go (i + 1) fs).map (s :: ·)
  go 0 r.fields

end Phenotyping.DelimitedText
