import Phenotyping.Toml.Cursor
import Phenotyping.Decimal.Reading
/-! # TOML tokens

Blanks, comments and line ends; keys; the four kinds of string; integers, floats, booleans,
dates and times. Each reader follows the TOML grammar byte by byte and fails the way the
grammar's alternatives do: a token that cannot start here is a dead end, one that started
and broke off is final, and the failure names the token (`invalid string`, `invalid
integer`, …) and what was expected.

Beyond the grammar, a number must fit its kind (a 64-bit integer; a float may not overflow
to positive infinity, though one that overflows to negative infinity is kept), a date must
exist, an escape must name a Unicode scalar value, and a key may have fewer than eighty
parts.
-/
namespace Phenotyping.Toml
set_option autoImplicit false

open Parse

def isWs (b : UInt8) : Bool := b == 0x20 || b == 0x09

def isNonAscii (b : UInt8) : Bool := 0x80 ≤ b

def isNonEol (b : UInt8) : Bool := b == 0x09 || (0x20 ≤ b && b ≤ 0x7E) || isNonAscii b

def isUnquoted (b : UInt8) : Bool :=
  (0x41 ≤ b && b ≤ 0x5A) || (0x61 ≤ b && b ≤ 0x7A) || (0x30 ≤ b && b ≤ 0x39) || b == 0x2D || b == 0x5F

def isBasicUnescaped (b : UInt8) : Bool :=
  isWs b || b == 0x21 || (0x23 ≤ b && b ≤ 0x5B) || (0x5D ≤ b && b ≤ 0x7E) || isNonAscii b

def isLiteralChar (b : UInt8) : Bool :=
  b == 0x09 || (0x20 ≤ b && b ≤ 0x26) || (0x28 ≤ b && b ≤ 0x7E) || isNonAscii b

def isDigitByte (b : UInt8) : Bool := 0x30 ≤ b && b ≤ 0x39

def isHexDigit (b : UInt8) : Bool :=
  isDigitByte b || (0x41 ≤ b && b ≤ 0x46) || (0x61 ≤ b && b ≤ 0x66)

def hexDigitValue (b : UInt8) : Nat :=
  if isDigitByte b then b.toNat - 0x30
  else if 0x61 ≤ b then b.toNat - 0x61 + 10
  else b.toNat - 0x41 + 10

def radixValue (radix : Nat) (ds : List UInt8) : Nat :=
  ds.foldl (fun n d => radix * n + hexDigitValue d) 0

def outOfRange : String := "value is out of range"

/-! ## Blanks, comments and line ends -/

def ws : Parse Unit := do
  let _ ← takeWhile isWs

def comment : Parse Unit := do
  byte (ascii '#')
  let _ ← takeWhile isNonEol

def newline : Parse Unit := do
  let b ← any
  if b == 0x0A then pure ()
  else if b == 0x0D then byte 0x0A
  else fail

def lineEnding : Parse Unit := orElse newline eof

def lineTrailing : Parse Unit := do
  ws
  let _ ← opt comment
  lineEnding

def wsCommentNewlineUpTo : Nat → Parse Unit
  | 0 => pure ()
  | fuel + 1 => do
    ws
    let b ← peek
    if b == some (ascii '#') then
      comment
      newline
      wsCommentNewlineUpTo fuel
    else if b == some 0x0A || b == some 0x0D then
      newline
      wsCommentNewlineUpTo fuel
    else pure ()

def wsCommentNewline : Parse Unit := fun c => wsCommentNewlineUpTo (c.rest.length + 1) c

def wsNewline : Parse Unit := do
  let _ ← many (orElse newline (do let _ ← takeWhile1 isWs))

def wsNewlines : Parse Unit := do
  newline
  wsNewline

/-! ## Strings -/

def scalarChar (n : Nat) : Except String Char :=
  if n < 0xD800 ∨ (0xDFFF < n ∧ n < 0x110000) then .ok (Char.ofNat n) else .error outOfRange

def hexEscape (n : Nat) : Parse Char :=
  tryMap (verify (takeBetween 0 n isHexDigit) (·.length == n)) fun ds => scalarChar (radixValue 16 ds)

def escapeNames : List Char := ['b', 'f', 'n', 'r', 't', 'u', 'U', '\\', '"']

def escapeSeqChar : Parse Char := do
  let b ← any
  if b == ascii 'b' then pure '\x08'
  else if b == ascii 'f' then pure '\x0c'
  else if b == ascii 'n' then pure '\n'
  else if b == ascii 'r' then pure '\r'
  else if b == ascii 't' then pure '\t'
  else if b == ascii 'u' then label "unicode 4-digit hex code" (cutErr (hexEscape 4))
  else if b == ascii 'U' then label "unicode 8-digit hex code" (cutErr (hexEscape 8))
  else if b == ascii '\\' then pure '\\'
  else if b == ascii '"' then pure '"'
  else escapeNames.foldl (fun p c => expect (.char c) p) (label "escape sequence" (cutErr fail))

def escaped : Parse Char := do
  byte (ascii '\\')
  escapeSeqChar

def basicChars : Parse String :=
  orElse (textOf <$> takeWhile1 isBasicUnescaped) (String.singleton <$> escaped)

def basicString : Parse String := do
  byte (ascii '"')
  let parts ← many basicChars
  label "basic string" (cutErr (byte (ascii '"')))
  pure (String.join parts)

def literalString : Parse String := label "literal string" do
  byte (ascii '\'')
  let body ← cutErr (takeWhile isLiteralChar)
  cutErr (byte (ascii '\''))
  pure (textOf body)

def mlQuotes (q : UInt8) (term : Parse Unit) : Parse String := fun c =>
  match (do literal [q, q]; lookAhead term) c with
  | .ok ((), c') => .ok (textOf [q, q], c')
  | .error f =>
    if f.cut then .error f
    else (do byte q; lookAhead term; pure (textOf [q])) c

def noneOf (q : UInt8) : Parse Unit := do
  let _ ← oneOf (· != q)

/-- A backslash at the end of a line, which removes the line end and the blanks after it. -/
def mlbEscapedNewline : Parse Unit := do
  let _ ← many1 (do byte (ascii '\\'); ws; wsNewlines)

def mlbContent : Parse String :=
  orElse (textOf <$> takeWhile1 isBasicUnescaped)
    (orElse (do mlbEscapedNewline; pure "")
      (orElse (String.singleton <$> escaped) (do newline; pure "\n")))

def mlbQuotedUpTo : Nat → Parse String
  | 0 => pure ""
  | fuel + 1 => do
    match ← opt (mlQuotes (ascii '"') (noneOf (ascii '"'))) with
    | none => pure ""
    | some qs =>
      match ← opt mlbContent with
      | none => pure ""
      | some first =>
        let more ← many mlbContent
        let rest ← mlbQuotedUpTo fuel
        pure (qs ++ first ++ String.join more ++ rest)

def mlBasicBody : Parse String := do
  let first ← many mlbContent
  let quoted ← fun c => mlbQuotedUpTo (c.rest.length + 1) c
  let last ← opt (mlQuotes (ascii '"') (literal (asciiBytes "\"\"\"")))
  pure (String.join first ++ quoted ++ last.getD "")

/-- A multi-line basic string between triple double quotes; a line end right after the
opening is dropped. -/
def mlBasicString : Parse String := label "multiline basic string" do
  literal (asciiBytes "\"\"\"")
  let _ ← opt newline
  let s ← cutErr mlBasicBody
  cutErr (literal (asciiBytes "\"\"\""))
  pure s

def mllContent : Parse Unit :=
  orElse (do let _ ← oneOf isLiteralChar) newline

def mlLiteralBody : Parse (List UInt8) := taken do
  let _ ← many mllContent
  let _ ← many (do
    let _ ← mlQuotes (ascii '\'') (noneOf (ascii '\''))
    let _ ← many1 mllContent)
  let _ ← opt (mlQuotes (ascii '\'') (literal (asciiBytes "'''")))

def dropCarriageReturns : List UInt8 → List UInt8
  | 0x0D :: 0x0A :: r => 0x0A :: dropCarriageReturns r
  | b :: r => b :: dropCarriageReturns r
  | [] => []

/-- A multi-line literal string between triple apostrophes; a line end right after the
opening is dropped, and line ends read as line feeds. -/
def mlLiteralString : Parse String := label "multiline literal string" do
  literal (asciiBytes "'''")
  let _ ← opt newline
  let body ← cutErr mlLiteralBody
  cutErr (literal (asciiBytes "'''"))
  pure (textOf (dropCarriageReturns body))

def string : Parse String :=
  orElse mlBasicString (orElse basicString (orElse mlLiteralString literalString))

/-! ## Keys -/

/-- The key-part limit: a key of this many parts or more is refused. -/
def keyLimit : Nat := 80

def simpleKey : Parse Key := do
  let start ← offset
  let b ← peekAny
  let name ← if b == ascii '"' then basicString
    else if b == ascii '\'' then literalString
    else textOf <$> takeWhile1 isUnquoted
  pure ⟨name, ⟨start, ← offset⟩⟩

def key : Parse (List Key) :=
  tryMap (label "key" (separated1 (do ws; let k ← simpleKey; ws; pure k) (byte (ascii '.'))))
    fun ks => if keyLimit ≤ ks.length then .error "recursion limit exceeded" else .ok ks

/-! ## Numbers, booleans, dates and times -/

def digit : Parse Unit := do
  let _ ← oneOf isDigitByte

def digitOrJoin (isDigit : UInt8 → Bool) : Parse Unit :=
  orElse (do let _ ← oneOf isDigit)
    (do byte (ascii '_'); expect (.description "digit") (cutErr (do let _ ← oneOf isDigit)))

/-- A decimal integer as written: an optional sign, then a single digit or a digit from 1 to
9 and more digits, single underscores allowed between them. -/
def decInt : Parse (List UInt8) := label "integer" (taken do
  let _ ← opt (oneOf fun b => b == ascii '+' || b == ascii '-')
  orElse (do let _ ← oneOf (fun b => 0x31 ≤ b && b ≤ 0x39); let _ ← many (digitOrJoin isDigitByte)) digit)

def zeroPrefixableInt : Parse Unit := do
  digit
  let _ ← many (digitOrJoin isDigitByte)

def exponent : Parse Unit := do
  let _ ← oneOf fun b => b == ascii 'e' || b == ascii 'E'
  let _ ← opt (oneOf fun b => b == ascii '+' || b == ascii '-')
  cutErr zeroPrefixableInt

def fraction : Parse Unit := do
  byte (ascii '.')
  expect (.description "digit") (cutErr zeroPrefixableInt)

def floatText : Parse (List UInt8) := taken do
  let _ ← decInt
  orElse exponent (do fraction; let _ ← opt exponent)

def withoutJoins (bs : List UInt8) : String := textOf (bs.filter (· != ascii '_'))

def specialFloat : Parse Float := do
  let sign ← opt (oneOf fun b => b == ascii '+' || b == ascii '-')
  let x ← orElse (do literal (asciiBytes "inf"); pure Binary64.infinity)
    (do literal (asciiBytes "nan"); pure Binary64.nan)
  pure (if sign == some (ascii '-') then Binary64.negate x else x)

/-- A float. Its text is read as the nearest float; one that overflows to positive infinity
is refused where it starts. -/
def float : Parse Float := label "floating-point number" (orElse
    (fun c => match floatText c with
      | .error f => .error f
      | .ok (text, c') => match Decimal.readFloat (withoutJoins text) with
        | .ok x =>
          if x == Binary64.infinity then .error { offset := c.offset, cut := true }
          else .ok (x, c')
        | .error _ => .error { offset := c.offset, cause := some "invalid float literal", cut := true })
    specialFloat)

def integerRange (i : Int) : Except String Int :=
  if i ≥ 9223372036854775808 then .error "number too large to fit in target type"
  else if i < -9223372036854775808 then .error "number too small to fit in target type"
  else .ok i

def radixDigits (prefix2 : String) (name : String) (isDigit : UInt8 → Bool) : Parse (List UInt8) :=
  label name do
    literal (asciiBytes prefix2)
    cutErr (taken do
      let _ ← oneOf isDigit
      let _ ← many (digitOrJoin isDigit))

/-- A decimal integer as written, read as a 64-bit integer; out of range it is refused, for
good, where it starts. -/
def decimalInteger : Parse Int := fun c => match decInt c with
  | .error f => .error f
  | .ok (text, c') =>
    let (neg, ds) := match text.filter (· != ascii '_') with
      | 0x2D :: ds => (true, ds)
      | 0x2B :: ds => (false, ds)
      | ds => (false, ds)
    let n : Int := radixValue 10 ds
    match integerRange (if neg then -n else n) with
    | .ok i => .ok (i, c')
    | .error m => .error { offset := c.offset, cause := some m, cut := true }

def integer : Parse Int := do
  match ← peek2 with
  | some (0x30, 0x78) => cutErr (tryMap (radixDigits "0x" "hexadecimal integer" isHexDigit)
      fun ds => integerRange (radixValue 16 (ds.filter (· != ascii '_'))))
  | some (0x30, 0x6F) => cutErr (tryMap (radixDigits "0o" "octal integer" (fun b => 0x30 ≤ b && b ≤ 0x37))
      fun ds => integerRange (radixValue 8 (ds.filter (· != ascii '_'))))
  | some (0x30, 0x62) => cutErr (tryMap (radixDigits "0b" "binary integer" (fun b => b == 0x30 || b == 0x31))
      fun ds => integerRange (radixValue 2 (ds.filter (· != ascii '_'))))
  | _ => decimalInteger

/-- `true` or `false`, spelled out in full once its first letter is there. -/
def boolean (word : String) (b : Bool) : Parse Bool := do
  let _ ← lookAhead (byte (ascii (word.toList.headD ' ')))
  cutErr (literal (asciiBytes word))
  pure b

def unsignedDigits (m n : Nat) : Parse (List UInt8) := takeBetween m n isDigitByte

def ranged (lo hi : Nat) : Parse Nat :=
  tryMap (unsignedDigits 2 2) fun ds =>
    let d := radixValue 10 ds
    if lo ≤ d ∧ d ≤ hi then .ok d else .error outOfRange

def daysIn (year month : Nat) : Nat :=
  if month = 2 then (if year % 4 = 0 ∧ (year % 100 ≠ 0 ∨ year % 400 = 0) then 29 else 28)
  else if month = 4 ∨ month = 6 ∨ month = 9 ∨ month = 11 then 30 else 31

/-- A full date `YYYY-MM-DD`: once the year and its dash are there, the rest must follow and
the day must exist in its month. -/
def fullDate : Parse Unit := do
  let year := radixValue 10 (← unsignedDigits 4 4)
  byte (ascii '-')
  let month ← cutErr (ranged 1 12)
  cutErr (byte (ascii '-'))
  let dayStart ← offset
  let day ← cutErr (ranged 1 31)
  if daysIn year month < day then
    throw { offset := dayStart, cause := some outOfRange, cut := true }

/-- A time `HH:MM:SS` with an optional fraction of a second: once the hour and its colon are
there, the rest must follow. -/
def partialTime : Parse Unit := do
  let _ ← ranged 0 23
  byte (ascii ':')
  cutErr do
    let _ ← ranged 0 59
    byte (ascii ':')
    let _ ← ranged 0 60
    let _ ← opt (do byte (ascii '.'); let _ ← unsignedDigits 1 (Nat.pow 2 64))

def timeOffset : Parse Unit := label "time offset" (orElse
  (do let _ ← oneOf fun b => b == ascii 'Z' || b == ascii 'z')
  (do
    let _ ← oneOf fun b => b == ascii '+' || b == ascii '-'
    cutErr (do let _ ← ranged 0 23; byte (ascii ':'); let _ ← ranged 0 59)))

def dateTime : Parse String := textOf <$> taken (orElse
  (label "date-time" do
    fullDate
    let _ ← opt (do
      let _ ← oneOf fun b => b == ascii 'T' || b == ascii 't' || b == ascii ' '
      partialTime
      let _ ← opt timeOffset))
  (label "time" partialTime))

end Phenotyping.Toml
