/-! # Binary64 values as sign, significand and exponent

A `Float` is read through its bit pattern: a finite value is `±significand · 2^exponent`
with the significand below `2^53`, and the two non-finite kinds are kept apart. Building a
finite value back from its parts is the inverse on every pattern that is not a NaN.
-/
namespace Phenotyping.Binary64
set_option autoImplicit false

/-- What a bit pattern denotes. A finite value is `(-1)^negative · significand · 2^exponent`,
with `exponent = -1074` for the subnormal range. -/
inductive View where
  | nan
  | infinite (negative : Bool)
  | finite (negative : Bool) (significand : Nat) (exponent : Int)
  deriving Repr, DecidableEq

def signBit (x : Float) : Bool := x.toBits.toNat ≥ Nat.pow 2 63

def exponentField (x : Float) : Nat := (x.toBits.toNat / Nat.pow 2 52) % 2048

def fractionField (x : Float) : Nat := x.toBits.toNat % Nat.pow 2 52

/-- Reads a bit pattern: an all-ones exponent field is an infinity or a NaN, a zero field is
subnormal (no hidden bit), every other field adds the hidden bit `2^52`. -/
def view (x : Float) : View :=
  let field := exponentField x
  let fraction := fractionField x
  if field = 2047 then
    if fraction = 0 then .infinite (signBit x) else .nan
  else if field = 0 then
    .finite (signBit x) fraction (-1074)
  else
    .finite (signBit x) (fraction + Nat.pow 2 52) ((field : Int) - 1075)

def infinity : Float := Float.ofBits 0x7FF0000000000000

def negInfinity : Float := Float.ofBits 0xFFF0000000000000

def nan : Float := Float.ofBits 0x7FF8000000000000

/-- Assembles a value from a sign, a significand below `2^53` and an exponent in the normal
or subnormal range; a significand below `2^52` is taken as subnormal. -/
def ofParts (negative : Bool) (significand : Nat) (exponent : Int) : Float :=
  let sign := if negative then Nat.pow 2 63 else 0
  let body :=
    if significand < Nat.pow 2 52 then significand
    else (exponent + 1075).toNat * Nat.pow 2 52 + (significand - Nat.pow 2 52)
  Float.ofBits (sign + body).toUInt64

def isFinite (x : Float) : Bool := exponentField x != 2047

def abs (x : Float) : Float := Float.ofBits (x.toBits.toNat % Nat.pow 2 63).toUInt64

def negate (x : Float) : Float :=
  Float.ofBits ((x.toBits.toNat + Nat.pow 2 63) % Nat.pow 2 64).toUInt64

/-- The IEEE total order key: a pattern mapped to a number so that `-NaN < -∞ < … < -0 <
+0 < … < +∞ < +NaN`. -/
def totalKey (x : Float) : Nat :=
  let bits := x.toBits.toNat
  if bits ≥ Nat.pow 2 63 then Nat.pow 2 64 - 1 - bits else bits + Nat.pow 2 63

end Phenotyping.Binary64
