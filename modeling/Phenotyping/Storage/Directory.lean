import Phenotyping.Storage.OsError
/-! # The working directory

A run sees its working directory as the files in it, each under its name relative to the
directory (`cells.tsv`, or `sub/cells.tsv` for a file in a subdirectory); a directory exists
when it is the working directory or holds a file. Of what lies outside the working directory
nothing is known: its parent is a directory, and no name in it exists.

A path is resolved as the system resolves it, one component at a time: empty components and
`.` stay where they are, `..` goes up, and every component before the last must be a
directory (a file there is `notADirectory`, a missing name `notFound`). A slash after the
last component asks for a directory. Opening for reading then fails on a missing name and on
a file asked for as a directory, while a directory opens and only reading it fails. Creating
a file fails on a directory and on every path that ends in a slash, and replaces a file that
exists.
-/
namespace Phenotyping.Storage
set_option autoImplicit false

/-- The working directory: file names with their bytes. -/
structure Directory where
  files : List (String × List UInt8) := []
  deriving Inhabited

/-- A directory that resolution can stand in. -/
inductive Location where
  | inside (components : List String)
  | outside
  deriving DecidableEq, Repr

/-- What a path names. -/
inductive Place where
  | file (name : String) (bytes : List UInt8)
  /-- A directory. -/
  | directory
  /-- Nothing: a file created there gets this name in the working directory, or lies outside
  it when there is no name. -/
  | absent (name : Option String)
  deriving DecidableEq, Repr

/-- What opening a path for reading finds. -/
inductive Opened where
  | file (bytes : List UInt8)
  /-- A directory: it opens, but reading it fails with `isADirectory`. -/
  | directory
  deriving DecidableEq, Repr

namespace Directory

def nameOf (components : List String) : String := "/".intercalate components

def find? (d : Directory) (name : String) : Option (List UInt8) :=
  (d.files.find? (·.1 = name)).map (·.2)

/-- Whether a directory exists at these components: the working directory, or one that holds
a file. -/
def hasDirectory (d : Directory) (components : List String) : Bool :=
  components.isEmpty || d.files.any fun f => (nameOf components ++ "/").isPrefixOf f.1

/-- Goes through a component that is not the last: it must lead to a directory. -/
def step (d : Directory) : Location → String → Except OsError Location
  | l, "" => .ok l
  | l, "." => .ok l
  | .inside cs, ".." => .ok (if cs.isEmpty then .outside else .inside cs.dropLast)
  | .outside, ".." => .ok .outside
  | .inside cs, n =>
    let here := cs ++ [n]
    if (d.find? (nameOf here)).isSome then .error .notADirectory
    else if d.hasDirectory here then .ok (.inside here)
    else .error .notFound
  | .outside, _ => .error .notFound

def entry (d : Directory) : Location → String → Place
  | _, "" => .directory
  | _, "." => .directory
  | _, ".." => .directory
  | .inside cs, n =>
    let name := nameOf (cs ++ [n])
    match d.find? name with
    | some bytes => .file name bytes
    | none => if d.hasDirectory (cs ++ [n]) then .directory else .absent (some name)
  | .outside, _ => .absent none

/-- Resolves a path: what it names, and whether it ends in a slash. A path starting with a
slash starts outside the working directory. -/
def resolve (d : Directory) (path : String) : Except OsError (Place × Bool) := do
  let parts := (path.splitOn "/").filter (· ≠ "")
  let start : Location := if path.startsWith "/" then .outside else .inside []
  let trailing := path.endsWith "/"
  match parts.getLast? with
  | none => pure (.directory, trailing)
  | some n =>
    let l ← parts.dropLast.foldlM d.step start
    pure (d.entry l n, trailing)

def openRead (d : Directory) (path : String) : Except OsError Opened := do
  match ← d.resolve path with
  | (.file _ bytes, trailing) => if trailing then throw .notADirectory else pure (.file bytes)
  | (.directory, _) => pure .directory
  | (.absent _, _) => throw .notFound

/-- Whether a path names something that exists; a file asked for as a directory does not. -/
def present (d : Directory) (path : String) : Bool :=
  match d.resolve path with
  | .ok (.file _ _, trailing) => !trailing
  | .ok (.directory, _) => true
  | _ => false

/-- Creates a file at a path, or replaces the one there. A file created outside the working
directory leaves it as it is. -/
def create (d : Directory) (path : String) (content : List UInt8) : Except OsError Directory := do
  let (place, trailing) ← d.resolve path
  if trailing then throw .isADirectory
  match place with
  | .directory => throw .isADirectory
  | .file name _ => pure ⟨d.files.map fun (n, c) => if n = name then (n, content) else (n, c)⟩
  | .absent (some name) => pure ⟨d.files ++ [(name, content)]⟩
  | .absent none => pure d

/-- The name a path gives a file of the working directory when read by its components alone:
empty and `.` components dropped; none for a path that leaves the directory or names none. -/
def plainName (path : String) : Option String :=
  let parts := (path.splitOn "/").filter fun p => p ≠ "" && p ≠ "."
  if path.startsWith "/" || parts.contains ".." || parts.isEmpty then none else some (nameOf parts)

end Directory

end Phenotyping.Storage
