import Phenotyping.Decimal.Rounding
/-! # Reading floats from text

The accepted grammar: an optional sign, then either a word (`inf`, `infinity`, `nan`, in any
case, the sign kept also on a NaN) or digits with an optional point (`5`, `5.`, `.5`, `5.25`) followed by an optional
exponent (`e` or `E`, an optional sign, at least one digit). Nothing else is allowed: no
blanks, no digit separators, no hexadecimal. The value is the binary64 nearest to the
decimal written, a tie to the even one.
-/
namespace Phenotyping.Decimal
set_option autoImplicit false

/-- Why a text is not a float. -/
inductive FloatSyntaxError where
  | empty
  | invalid
  deriving Repr, DecidableEq

def FloatSyntaxError.message : FloatSyntaxError → String
  | .empty => "cannot parse float from empty string"
  | .invalid => "invalid float literal"

def digitsValue (cs : List Char) : Nat :=
  cs.foldl (fun n c => 10 * n + (c.toNat - '0'.toNat)) 0

def lowerAscii (cs : List Char) : List Char :=
  cs.map fun c => if 'A' ≤ c ∧ c ≤ 'Z' then Char.ofNat (c.toNat + 32) else c

/-- The exponent part: `e` or `E`, an optional sign, digits; the empty rest means none. -/
def readExponent : List Char → Option Int
  | [] => some 0
  | c :: rest =>
    if c = 'e' ∨ c = 'E' then
      let (neg, ds) := match rest with
        | '+' :: ds => (false, ds)
        | '-' :: ds => (true, ds)
        | ds => (false, ds)
      if ds ≠ [] ∧ ds.all Char.isDigit then
        some (if neg then -(digitsValue ds : Int) else digitsValue ds)
      else none
    else none

/-- The unsigned part of a decimal numeral: digits, optional point and digits, optional
exponent; at least one digit before the exponent. -/
def readUnsigned (cs : List Char) : Option Decimal :=
  let whole := cs.takeWhile Char.isDigit
  let rest := cs.dropWhile Char.isDigit
  let (frac, rest) := match rest with
    | '.' :: more => (more.takeWhile Char.isDigit, more.dropWhile Char.isDigit)
    | _ => ([], rest)
  if whole = [] ∧ frac = [] then none else
    match readExponent rest with
    | some e => some ⟨digitsValue (whole ++ frac), e - (frac.length : Int)⟩
    | none => none

def readFloat (text : String) : Except FloatSyntaxError Float :=
  let cs := text.toList
  if cs = [] then .error .empty else
    let (neg, body) := match cs with
      | '+' :: b => (false, b)
      | '-' :: b => (true, b)
      | b => (false, b)
    let word := lowerAscii body
    if word = "inf".toList ∨ word = "infinity".toList then
      .ok (if neg then Binary64.negInfinity else Binary64.infinity)
    else if word = "nan".toList then .ok (if neg then Binary64.negate Binary64.nan else Binary64.nan)
    else match readUnsigned body with
      | some d => .ok (toFloat neg d)
      | none => .error .invalid

end Phenotyping.Decimal
