import Phenotyping.DelimitedText.Error
import Phenotyping.Intensity
/-! # Table files

The files that cross the engine's boundary are delimited text with a header line. A file
whose extension is `csv` (in any case) is comma-separated; every other file is
tab-separated. The errors of reading them name the file.
-/
namespace Phenotyping.Files
set_option autoImplicit false

open DelimitedText

/-- Why a table file could not be read. -/
inductive TableIoError where
  | delimited (e : DelimitedError)
  | missingHeader (path : String)
  | notANumber (path : String) (line : Nat) (column value : String)
  | intensity (e : IntensityError)
  deriving Inhabited

def TableIoError.message : TableIoError → String
  | .delimited e => s!"Error from the delimited-text reader: {e.message}"
  | .missingHeader p => s!"{p} has no header row"
  | .notANumber p l c v => s!"{p}, line {l}: column '{c}' holds '{v}', which is not a number"
  | .intensity e => e.message

/-- The extension of a path's last component: after its last dot, unless that dot starts
the name. -/
def extension (path : String) : Option String :=
  let name := (path.splitOn "/").getLastD ""
  match name.splitOn "." with
  | [] | [_] => none
  | first :: rest => if first = "" ∧ rest.length = 1 then none else rest.getLast?

/-- The delimiter of a file: a comma for a `csv` extension in any case, a tab otherwise. -/
def delimiterFor (path : String) : Char :=
  match extension path with
  | some e => if e.toLower = "csv" then ',' else '\t'
  | none => '\t'

def delimiterByte (path : String) : UInt8 := (delimiterFor path).toNat.toUInt8

end Phenotyping.Files
