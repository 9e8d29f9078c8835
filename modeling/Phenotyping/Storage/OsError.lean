/-! # Operating-system errors

The three ways opening a path can fail that the program reports: the path names nothing, a
component before the last is a file, or a directory stands where a file is needed. Each is
worded as the system words it, with its error number.
-/
namespace Phenotyping.Storage
set_option autoImplicit false

/-- Why a path could not be opened. -/
inductive OsError where
  | notFound
  | notADirectory
  | isADirectory
  deriving DecidableEq, Repr, Inhabited

def OsError.code : OsError → Nat
  | .notFound => 2
  | .notADirectory => 20
  | .isADirectory => 21

def OsError.message (e : OsError) : String :=
  let text := match e with
    | .notFound => "No such file or directory"
    | .notADirectory => "Not a directory"
    | .isADirectory => "Is a directory"
  let code := e.code
  s!"{text} (os error {code})"

end Phenotyping.Storage
