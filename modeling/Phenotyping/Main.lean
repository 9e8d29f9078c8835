import Phenotyping.CommandLine.Run
/-! # The `phenocount` program

Reads the files that a command line names from the working directory, runs the command line
on them, prints what it printed, writes back the files it changed, and exits with its code.
-/
open Phenotyping.CommandLine
open Phenotyping.Storage

/-- The bytes of a file under its name in the directory, if it can be read. -/
def readIfPresent (path : String) : IO (Option (String × List UInt8)) := do
  try
    let bytes ← IO.FS.readBinFile path
    pure (some (path, bytes.toList))
  catch _ => pure none

def main (args : List String) : IO UInt32 := do
  let paths := match parse args with
    | .ok inv => (inv.inputs.filterMap Directory.plainName).eraseDups
    | .error _ => []
  let before : Directory := ⟨← paths.filterMapM readIfPresent⟩
  let r := respond args before
  IO.print r.stdout
  match r.stderr, r.usageError with
  | some text, _ => IO.eprint text
  | none, some kind => IO.eprintln s!"error: {kind}"
  | none, none => pure ()
  for (name, bytes) in r.directory.files do
    if before.find? name != some bytes then
      IO.FS.writeBinFile name (ByteArray.mk bytes.toArray)
  pure r.exitCode.toUInt32
