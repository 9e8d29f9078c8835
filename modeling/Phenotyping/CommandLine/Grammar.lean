import Phenotyping.DelimitedText.Columns
import Phenotyping.Decimal.Reading
/-! # Command-line grammar

A command takes options written `--name value` or `--name=value`, the flag `-h`/`--help`, and,
where it says so, `-V`/`--version`; a command with subcommands takes one subcommand word, and
the arguments after it belong to the subcommand. An option's value is the next argument unless
that one looks like a flag (a `-` followed by anything), so a value starting with `-` must be
attached with `=`. After `--` no argument is an option.

An option's values are checked when the option is complete, that is when the next flag
arrives or the arguments end: a missing value first, then a second use of an option that is
given once, then values that do not read as the option's kind (an empty path counts as a
missing value). An unknown flag is reported without checking the option before it. Errors
are reported by kind only.
-/
namespace Phenotyping.CommandLine
set_option autoImplicit false

/-- What an option's value must read as. -/
inductive ValueKind where
  | text
  | count
  | float
  | smallCount
  | path
  deriving DecidableEq, Repr

def isDigit (c : Char) : Bool := '0' ≤ c && c ≤ '9'

/-- A 32-bit count: an optional sign and decimal digits whose value lies in `[0, 2^32)`.
A minus sign is allowed before a zero. -/
def readSmallCount (s : String) : Option Nat :=
  match s.toList with
  | '-' :: ds =>
    if !ds.isEmpty && ds.all isDigit && Decimal.digitsValue ds = 0 then some 0 else none
  | '+' :: ds | ds =>
    if !ds.isEmpty && ds.all isDigit && Decimal.digitsValue ds < Nat.pow 2 32 then
      some (Decimal.digitsValue ds)
    else none

/-- A count: decimal digits after an optional `+`, below 2^64. -/
def readCount (s : String) : Option Nat :=
  match DelimitedText.readCountIn 10 s.toList with
  | .ok n => some n
  | .error _ => none

def ValueKind.accepts : ValueKind → String → Bool
  | .text, _ => true
  | .count, s => (readCount s).isSome
  | .float, s => (Decimal.readFloat s).toBool
  | .smallCount, s => (readSmallCount s).isSome
  | .path, s => !s.isEmpty

/-- One `--name <VALUE>` option of a command. -/
structure OptionSpec where
  name : String
  kind : ValueKind := .text
  repeatable : Bool := false
  commaList : Bool := false
  required : Bool := false
  default : Option String := none
  help : String
  deriving Repr

namespace OptionSpec

def placeholder (o : OptionSpec) : String :=
  String.ofList (o.name.toList.map fun c => if c = '-' then '_' else c.toUpper)

def usage (o : OptionSpec) : String :=
  let p := o.placeholder
  s!"--{o.name} <{p}>"

def description (o : OptionSpec) : String :=
  match o.default with
  | some d => s!"{o.help} [default: {d}]"
  | none => o.help

def split (o : OptionSpec) (vs : List String) : List String :=
  if o.commaList then vs.flatMap (·.splitOn ",") else vs

end OptionSpec

/-- A command: how it is called, what it does, its options, whether it answers `--version`,
and its subcommands with their descriptions. -/
structure CommandSpec where
  path : String
  about : String
  options : List OptionSpec
  versioned : Bool := false
  commands : List (String × String) := []
  deriving Repr

/-- The kinds of usage error. -/
inductive UsageError where
  | missingArgumentOrSubcommand
  | missingSubcommand
  | invalidSubcommand
  | unknownArgument
  | invalidValue
  | valueValidation
  | argumentConflict
  | missingRequiredArgument
  | tooManyValues
  deriving DecidableEq, Repr

def UsageError.kind : UsageError → String
  | .missingArgumentOrSubcommand => "DisplayHelpOnMissingArgumentOrSubcommand"
  | .missingSubcommand => "MissingSubcommand"
  | .invalidSubcommand => "InvalidSubcommand"
  | .unknownArgument => "UnknownArgument"
  | .invalidValue => "InvalidValue"
  | .valueValidation => "ValueValidation"
  | .argumentConflict => "ArgumentConflict"
  | .missingRequiredArgument => "MissingRequiredArgument"
  | .tooManyValues => "TooManyValues"

/-- Why a command line does not lead to a run. -/
inductive Stop where
  | help (text : String)
  | version
  | usage (e : UsageError)
  deriving DecidableEq, Repr

/-- The values given for each option, in the order the options were first given. -/
abbrev Given := List (String × List String)

def Given.lookup (g : Given) (name : String) : Option (List String) :=
  (g.find? (·.1 = name)).map (·.2)

/-- The error for a value an option's kind refuses: an empty path counts as a missing value,
anything else as a value that does not read. -/
def ValueKind.refusal : ValueKind → UsageError
  | .path => .invalidValue
  | _ => .valueValidation

/-- Takes one use of an option: a value must be present, an option that is not repeatable
may not have been given before, and every value must read as the option's kind. -/
def Given.take (g : Given) (o : OptionSpec) (vs : List String) : Except UsageError Given :=
  if vs.isEmpty then .error .invalidValue
  else
    let vs := o.split vs
    match g.lookup o.name with
    | some _ =>
      if !o.repeatable then .error .argumentConflict
      else if vs.all o.kind.accepts then
        .ok (g.map fun (n, old) => if n = o.name then (n, old ++ vs) else (n, old))
      else .error o.kind.refusal
    | none => if vs.all o.kind.accepts then .ok (g ++ [(o.name, vs)]) else .error o.kind.refusal

/-- The state of a left-to-right scan of a command's arguments. -/
structure Scan where
  given : Given := []
  /-- An option whose values are not yet checked, with the values it has. -/
  pending : Option (OptionSpec × List String) := none
  /-- The pending option takes the next argument as its value. -/
  awaiting : Bool := false
  /-- A `--` has ended the options. -/
  trailing : Bool := false

namespace Scan

def settle (s : Scan) : Except UsageError Scan :=
  match s.pending with
  | none => .ok s
  | some (o, vs) => (s.given.take o vs).map fun g => { s with given := g, pending := none, awaiting := false }

def flag (s : Scan) (answer : Stop) : Except Stop Scan :=
  match s.settle with
  | .ok _ => .error answer
  | .error e => .error (.usage e)

end Scan

def splitAttached (cs : List Char) : String × Option String :=
  match cs.dropWhile (· ≠ '=') with
  | [] => (String.ofList cs, none)
  | _ :: v => (String.ofList (cs.takeWhile (· ≠ '=')), some (String.ofList v))

namespace CommandSpec

def stray (c : CommandSpec) (a : String) (trailing : Bool) : UsageError :=
  if c.commands.isEmpty then .unknownArgument
  else if trailing && c.commands.any (·.1 = a) then .unknownArgument
  else .invalidSubcommand

def flagLines (c : CommandSpec) : List (String × String) :=
  [("-h, --help", "Print help")] ++ if c.versioned then [("-V, --version", "Print version")] else []

def optionLines (c : CommandSpec) : List (String × String) :=
  c.options.map (fun o => ("    " ++ o.usage, o.description)) ++ c.flagLines

def spaces (n : Nat) : String := String.ofList (List.replicate n ' ')

/-- A two-column list: descriptions start two columns after the longest entry, or, when that
leaves a description too little of a 100-column line, on the next line after ten spaces. -/
def columns (lines : List (String × String)) : String :=
  let longest := lines.foldl (fun m l => max m l.1.length) 2
  let taken := longest + 4
  let nextLine := taken ≤ 100 && taken > 40 && lines.any (fun l => l.2.length > 100 - taken)
  "\n".intercalate (lines.map fun (l, d) =>
    if nextLine then "  " ++ l ++ "\n" ++ spaces 10 ++ d
    else "  " ++ l ++ spaces (longest + 2 - l.length) ++ d)

/-- The usage line: the command, `[OPTIONS]` when it has an option that is not required,
its required options, and `<COMMAND>` when it has subcommands. -/
def usage (c : CommandSpec) : String :=
  let optional := if c.options.any (!·.required) then " [OPTIONS]" else ""
  let required := String.join (c.options.filter (·.required) |>.map fun o => " " ++ o.usage)
  let command := if c.commands.isEmpty then "" else " <COMMAND>"
  "Usage: " ++ c.path ++ optional ++ required ++ command

def helpText (c : CommandSpec) : String :=
  let commands := if c.commands.isEmpty then "" else "Commands:\n" ++ columns c.commands ++ "\n\n"
  c.about ++ "\n\n" ++ c.usage ++ "\n\n" ++ commands ++ "Options:\n" ++ columns c.optionLines ++ "\n"

/-- Scans a command's arguments up to its subcommand, if any. -/
def scan (c : CommandSpec) (s : Scan) : List String → Except Stop (Scan × Option (String × List String))
  | [] => match s.settle with
    | .ok s => .ok (s, none)
    | .error e => .error (.usage e)
  | a :: rest =>
    if s.trailing then .error (.usage (c.stray a true))
    else if !s.awaiting && c.commands.any (·.1 = a) then .ok (s, some (a, rest))
    else if a = "--" then scan c { s with trailing := true } rest
    else match a.toList with
      | '-' :: '-' :: body =>
        let (key, attached) := splitAttached body
        match c.options.find? (·.name = key), attached with
        | some o, some v => match s.settle.bind fun s => s.given.take o [v] with
          | .ok g => scan c { s with given := g, pending := none, awaiting := false } rest
          | .error e => .error (.usage e)
        | some o, none => match s.settle with
          | .ok s => scan c { s with pending := some (o, []), awaiting := true } rest
          | .error e => .error (.usage e)
        | none, some _ =>
          if key = "help" || (key = "version" && c.versioned) then .error (.usage .tooManyValues)
          else .error (.usage .unknownArgument)
        | none, none =>
          if key = "help" then (s.flag (.help c.helpText)).map fun s => (s, none)
          else if key = "version" && c.versioned then (s.flag .version).map fun s => (s, none)
          else .error (.usage .unknownArgument)
      | '-' :: f :: _ =>
        if f = 'h' then (s.flag (.help c.helpText)).map fun s => (s, none)
        else if f = 'V' && c.versioned then (s.flag .version).map fun s => (s, none)
        else .error (.usage .unknownArgument)
      | _ =>
        if s.awaiting then
          scan c { s with pending := s.pending.map (fun (o, vs) => (o, vs ++ [a])), awaiting := false } rest
        else .error (.usage (c.stray a false))

/-- Adds the defaults of options not given, then checks that every required option is given. -/
def complete (c : CommandSpec) (g : Given) : Except UsageError Given :=
  let defaults := c.options.filterMap fun o =>
    if (g.lookup o.name).isSome then none else o.default.map fun d => (o.name, [d])
  let g := g ++ defaults
  if c.options.all (fun o => !o.required || (g.lookup o.name).isSome) then .ok g
  else .error .missingRequiredArgument

end CommandSpec

end Phenotyping.CommandLine
