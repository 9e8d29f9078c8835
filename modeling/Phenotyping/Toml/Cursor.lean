import Phenotyping.Toml.Value
import Phenotyping.Text.Utf8
/-! # Reading the bytes of a TOML document

A document is read as its UTF-8 bytes, a cursor marking how far reading has come. A read
that fails says where the input stood when it failed, what was being read (labels) and what
was expected there, innermost first, and its cause when a rule of the document rather than
of the grammar was broken. A failure is a dead end, after which an alternative may be tried
from where the alternatives began and an optional or repeated part simply ends, or it is
final (cut), which ends the whole reading.

Most readers leave the cursor where they failed; a reader that checks what it read fails
where it began. The message of a failure is `invalid` and its innermost label, then the
expected things, then the cause, each on a line of its own.
-/
namespace Phenotyping.Toml
set_option autoImplicit false

/-- How far reading has come: the bytes still to read, and how many have been read. -/
structure Cursor where
  rest : List UInt8
  offset : Nat
  deriving DecidableEq, Repr, Inhabited

/-- What a failed read expected to see. -/
inductive Expectation where
  | char (c : Char)
  | literal (s : String)
  | description (s : String)
  deriving DecidableEq, Repr

/-- How an expectation reads in a message: a line feed is `newline`, characters and texts
stand between backticks, descriptions as they are. -/
def Expectation.shown : Expectation → String
  | .char c => if c = '\n' then "newline" else "`" ++ c.toString ++ "`"
  | .literal s => "`" ++ s ++ "`"
  | .description s => s

/-- What a failed read was doing or expected. -/
inductive Note where
  | label (s : String)
  | expected (e : Expectation)
  deriving DecidableEq, Repr

/-- A failed read. -/
structure Failure where
  offset : Nat
  notes : List Note := []
  cause : Option String := none
  /-- Whether the failure ends the whole reading. -/
  cut : Bool := false
  deriving DecidableEq, Repr

def Failure.message (f : Failure) : String :=
  let label := f.notes.findSome? fun
    | .label s => some s
    | .expected _ => none
  let expected := f.notes.filterMap fun
    | .expected e => some e.shown
    | .label _ => none
  let parts := (label.map ("invalid " ++ ·)).toList ++
    (if expected.isEmpty then [] else ["expected " ++ ", ".intercalate expected]) ++ f.cause.toList
  "\n".intercalate parts

abbrev Parse (α : Type) := StateT Cursor (Except Failure) α

namespace Parse

def fail {α : Type} : Parse α := fun c => .error { offset := c.offset }

def offset : Parse Nat := fun c => .ok (c.offset, c)

def peek : Parse (Option UInt8) := fun c => .ok (c.rest.head?, c)

def peekAny : Parse UInt8 := fun c => match c.rest with
  | b :: _ => .ok (b, c)
  | [] => .error { offset := c.offset }

def peek2 : Parse (Option (UInt8 × UInt8)) := fun c =>
  .ok ((match c.rest with
    | a :: b :: _ => some (a, b)
    | _ => none), c)

def any : Parse UInt8 := fun c => match c.rest with
  | b :: r => .ok (b, ⟨r, c.offset + 1⟩)
  | [] => .error { offset := c.offset }

def oneOf (p : UInt8 → Bool) : Parse UInt8 := fun c => match c.rest with
  | b :: r => if p b then .ok (b, ⟨r, c.offset + 1⟩) else .error { offset := c.offset }
  | [] => .error { offset := c.offset }

def byte (b : UInt8) : Parse Unit := fun c => match oneOf (· == b) c with
  | .ok (_, c') => .ok ((), c')
  | .error f => .error f

def literal (bs : List UInt8) : Parse Unit := fun c =>
  if bs.isPrefixOf c.rest then .ok ((), ⟨c.rest.drop bs.length, c.offset + bs.length⟩)
  else .error { offset := c.offset }

def takeWhile (p : UInt8 → Bool) : Parse (List UInt8) := fun c =>
  let bs := c.rest.takeWhile p
  .ok (bs, ⟨c.rest.drop bs.length, c.offset + bs.length⟩)

def takeBetween (m n : Nat) (p : UInt8 → Bool) : Parse (List UInt8) := fun c =>
  let bs := (c.rest.takeWhile p).take n
  if bs.length < m then .error { offset := c.offset }
  else .ok (bs, ⟨c.rest.drop bs.length, c.offset + bs.length⟩)

def takeWhile1 (p : UInt8 → Bool) : Parse (List UInt8) := fun c =>
  let bs := c.rest.takeWhile p
  if bs.isEmpty then .error { offset := c.offset }
  else .ok (bs, ⟨c.rest.drop bs.length, c.offset + bs.length⟩)

def eof : Parse Unit := fun c =>
  if c.rest.isEmpty then .ok ((), c) else .error { offset := c.offset }

def cutErr {α : Type} (p : Parse α) : Parse α := fun c => match p c with
  | .error f => .error { f with cut := true }
  | r => r

def note {α : Type} (n : Note) (p : Parse α) : Parse α := fun c => match p c with
  | .error f => .error { f with notes := f.notes ++ [n] }
  | r => r

def label {α : Type} (s : String) (p : Parse α) : Parse α := note (.label s) p

def expect {α : Type} (e : Expectation) (p : Parse α) : Parse α := note (.expected e) p

def opt {α : Type} (p : Parse α) : Parse (Option α) := fun c => match p c with
  | .ok (a, c') => .ok (some a, c')
  | .error f => if f.cut then .error f else .ok (none, c)

/-- The first reader, or at its dead end the second from the same place; when both fail,
the second's failure. -/
def orElse {α : Type} (p q : Parse α) : Parse α := fun c => match p c with
  | .error f => if f.cut then .error f else q c
  | r => r

def lookAhead {α : Type} (p : Parse α) : Parse α := fun c => match p c with
  | .ok (a, _) => .ok (a, c)
  | .error f => .error { f with offset := c.offset }

/-- Checks what a reader read: a refusal fails, as a dead end, where the reader began, with
the refusal as its cause. -/
def tryMap {α β : Type} (p : Parse α) (f : α → Except String β) : Parse β := fun c => match p c with
  | .ok (a, c') => match f a with
    | .ok b => .ok (b, c')
    | .error m => .error { offset := c.offset, cause := some m }
  | .error e => .error e

def verify {α : Type} (p : Parse α) (ok : α → Bool) : Parse α := fun c => match p c with
  | .ok (a, c') => if ok a then .ok (a, c') else .error { offset := c.offset }
  | .error e => .error e

def taken {α : Type} (p : Parse α) : Parse (List UInt8) := fun c => match p c with
  | .ok (_, c') => .ok (c.rest.take (c'.offset - c.offset), c')
  | .error e => .error e

def spanned {α : Type} (p : Parse α) : Parse (α × Span) := fun c => match p c with
  | .ok (a, c') => .ok ((a, ⟨c.offset, c'.offset⟩), c')
  | .error e => .error e

def manyUpTo {α : Type} (p : Parse α) : Nat → Parse (List α)
  | 0 => pure []
  | fuel + 1 => fun c => match p c with
    | .ok (a, c') => match manyUpTo p fuel c' with
      | .ok (as, c'') => .ok (a :: as, c'')
      | .error f => .error f
    | .error f => if f.cut then .error f else .ok ([], c)

/-- Reads with `p` as often as it succeeds. Every reader repeated reads a byte at least, so
one more attempt than there are bytes left is enough. -/
def many {α : Type} (p : Parse α) : Parse (List α) := fun c => manyUpTo p (c.rest.length + 1) c

def many1 {α : Type} (p : Parse α) : Parse (List α) := do
  let a ← p
  let as ← many p
  pure (a :: as)

def separatedTail {α : Type} (p : Parse α) (sep : Parse Unit) : Nat → Parse (List α)
  | 0 => pure []
  | fuel + 1 => fun c => match sep c with
    | .error f => if f.cut then .error f else .ok ([], c)
    | .ok ((), c1) => match p c1 with
      | .error f => if f.cut then .error f else .ok ([], c)
      | .ok (a, c2) => match separatedTail p sep fuel c2 with
        | .ok (as, c3) => .ok (a :: as, c3)
        | .error f => .error f

def separated1 {α : Type} (p : Parse α) (sep : Parse Unit) : Parse (List α) := fun c =>
  match p c with
  | .error f => .error f
  | .ok (a, c1) => match separatedTail p sep (c1.rest.length + 1) c1 with
    | .ok (as, c2) => .ok (a :: as, c2)
    | .error f => .error f

def separated0 {α : Type} (p : Parse α) (sep : Parse Unit) : Parse (List α) := fun c =>
  match p c with
  | .error f => if f.cut then .error f else .ok ([], c)
  | .ok (a, c1) => match separatedTail p sep (c1.rest.length + 1) c1 with
    | .ok (as, c2) => .ok (a :: as, c2)
    | .error f => .error f

end Parse

def ascii (c : Char) : UInt8 := c.toNat.toUInt8

def asciiBytes (s : String) : List UInt8 := s.toList.map ascii

def textOf (bs : List UInt8) : String :=
  match Text.decodeUtf8 bs with
  | .ok s => s
  | .error _ => ""

end Phenotyping.Toml
