import Phenotyping.Toml.Document
/-! # TOML error reports

An error in a document is shown with the line it stands on: a heading with the line and
column (both from 1), the line itself under a gutter as wide as its number, and carets under
the stretch the error covers, cut at the end of the line but always at least one; then the
message. An error that stands nowhere is its message alone.

The column counts characters from the start of the line up to the error's byte; when that
stretch does not end on a whole character it counts bytes instead. An error at the end of
the input stands one column past the last byte.
-/
namespace Phenotyping.Toml
set_option autoImplicit false

/-- A TOML error: its message, and the stretch of the document it covers, if any. -/
structure Report where
  message : String
  span : Option Span
  deriving DecidableEq, Repr

def beginsChar (b : UInt8) : Bool := b < 0x80 || b ≥ 0xC0

/-- The whole character at a byte offset of a text's bytes: from the last byte at or before it
that begins a character to the next such byte after it, or to the end. At the end of the
input it is the empty stretch there. -/
def charSpan (bytes : List UInt8) (offset : Nat) : Span :=
  if bytes.length ≤ offset then ⟨offset, offset⟩ else
  let begins := fun i => beginsChar (bytes.getD i 0)
  let start := ((List.range (offset + 1)).reverse.find? begins).getD 0
  let stop := ((List.range' (offset + 1) (bytes.length - (offset + 1))).find? begins).getD
    bytes.length
  ⟨start, stop⟩

/-- The report of a failed reading of a document: it covers the character where the input
stood, or nothing at the end. -/
def Failure.report (f : Failure) (bytes : List UInt8) : Report :=
  ⟨f.message, some (charSpan bytes f.offset)⟩

def ReadError.report (text : String) : ReadError → Report
  | .grammar f => f.report text.toUTF8.toList
  | .closing m => ⟨m, none⟩

/-- The line (from 0) and column (from 0) of a byte offset in a document's bytes. -/
def position (bytes : List UInt8) (index : Nat) : Nat × Nat :=
  if bytes.isEmpty then (0, index) else
  let safe := min index (bytes.length - 1)
  let past := index - safe
  let lineStart := match (bytes.take safe).reverse.findIdx? (· == 0x0A) with
    | some k => safe - k
    | none => 0
  let line := ((bytes.take lineStart).filter (· == 0x0A)).length
  let stretch := (bytes.drop lineStart).take (safe - lineStart + 1)
  let column := match Text.decodeUtf8 stretch with
    | .ok s => s.length - 1
    | .error _ => safe - lineStart
  (line, column + past)

def blanks (n : Nat) : String := String.ofList (List.replicate n ' ')

def Report.render (text : String) (r : Report) : String :=
  match r.span with
  | none => r.message ++ "\n"
  | some span =>
    let (line, column) := position text.toUTF8.toList span.start
    let number := line + 1
    let gutter := (toString number).length
    let content := (text.splitOn "\n").getD line ""
    let width := min (span.stop - span.start) (content.utf8ByteSize - column)
    let carets := String.ofList (List.replicate (max width 1) '^')
    let heading := s!"TOML parse error at line {number}, column {column + 1}\n"
    heading ++ blanks (gutter + 1) ++ "|\n" ++ s!"{number} | " ++ content ++ "\n" ++
      blanks (gutter + 1) ++ "|" ++ blanks (column + 1) ++ carets ++ "\n" ++ r.message ++ "\n"

end Phenotyping.Toml
