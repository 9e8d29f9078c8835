import Phenotyping.Decimal.Shortest
import Phenotyping.Decimal.Rounding
/-! # Writing floats as text

Every output format here writes the shortest digits that read back and differs in layout:
where positional notation gives way to an exponent, whether an integral value keeps a `.0`,
the words for the non-finite values, and which of two equally near shortest decimals it
takes. Each format is one `Notation` record; fixed places are
written separately from the exactly rounded value.
-/
namespace Phenotyping.Decimal
set_option autoImplicit false

/-- The layout decisions of one float format. -/
structure Notation where
  /-- Positional notation is used when the point position `k` satisfies `low < k ≤ high`;
  `none` writes every value positionally. -/
  positional : Option (Int × Int)
  /-- An integral value written positionally ends in `.0`. -/
  pointZero : Bool
  nanWord : String
  infinityWord : String
  tie : Tie

/-- Human-readable messages: always positional, no `.0` (`16`, `0.0000001`, `-0`); of two
equally near shortest decimals the larger. -/
def Notation.message : Notation := ⟨none, false, "NaN", "inf", .up⟩

/-- Written table files: positional for `-5 < k ≤ 16`, `.0` on integral values, otherwise
`d.ddde±x` with a bare exponent (`1e16`, `1.5e-7`, `1000000000000000.0`); of two equally
near shortest decimals the one with the even last digit. -/
def Notation.table : Notation := ⟨some (-5, 16), true, "NaN", "inf", .even⟩

/-- Configuration files: always positional, `.0` on integral values (`0.000000001`, `5.0`);
of two equally near shortest decimals the larger. -/
def Notation.config : Notation := ⟨none, true, "nan", "inf", .up⟩

def zeros (n : Nat) : String := String.ofList (List.replicate n '0')

/-- Lays out a non-negative decimal with digits `s` and point position `k`. -/
def Notation.layout (f : Notation) (d : Decimal) : String :=
  let s := digitChars d.digits
  let len := s.length
  let k := d.point
  let positional := match f.positional with
    | none => true
    | some (low, high) => low < k ∧ k ≤ high
  if positional then
    if k ≤ 0 then "0." ++ zeros (-k).toNat ++ String.ofList s
    else if k < len then
      String.ofList (s.take k.toNat) ++ "." ++ String.ofList (s.drop k.toNat)
    else String.ofList s ++ zeros (k.toNat - len) ++ (if f.pointZero then ".0" else "")
  else
    let mantissa := match s with
      | [c] => String.singleton c
      | c :: rest => String.singleton c ++ "." ++ String.ofList rest
      | [] => "0"
    mantissa ++ "e" ++ toString (k - 1)

def Notation.render (f : Notation) (x : Float) : String :=
  match shortest f.tie x with
  | .nan => f.nanWord
  | .infinite neg => (if neg then "-" else "") ++ f.infinityWord
  | .finite neg d => (if neg then "-" else "") ++ f.layout d

/-- A float rounded half to even to `places` decimals and written positionally with exactly
that many (`0.666667`); non-finite values as in messages. -/
def renderFixed (places : Nat) (x : Float) : String :=
  match Binary64.view x with
  | .nan => "NaN"
  | .infinite neg => (if neg then "-" else "") ++ "inf"
  | .finite neg m e =>
    let units := toFixedUnits m e places
    let whole := toString (units / Nat.pow 10 places)
    let frac := String.ofList (digitChars (units % Nat.pow 10 places))
    let body := if places = 0 then whole
      else whole ++ "." ++ zeros (places - frac.length) ++ frac
    (if neg then "-" else "") ++ body

end Phenotyping.Decimal
