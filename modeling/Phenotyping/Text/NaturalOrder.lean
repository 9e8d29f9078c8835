import Phenotyping.Text.Blank
/-! # Natural order of texts

Texts are compared token by token, blanks between tokens ignored. A run of ASCII digits is
compared with a run of digits by number: a longer run is larger, runs of one length by
their first differing digit; but when either run starts with `0` both are read as decimal
fractions, digit by digit from the left, a run that is a prefix of the other being smaller
(`001 < 01 < 1 < 9 < 10`). Any other character is compared with the character opposite it
by code point (`X < e < x < é`).
-/
namespace Phenotyping.Text
set_option autoImplicit false

def compareLex : List Char → List Char → Ordering
  | [], [] => .eq
  | [], _ :: _ => .lt
  | _ :: _, [] => .gt
  | a :: as, b :: bs => (compare a.toNat b.toNat).then (compareLex as bs)

/-- Two digit runs: left aligned when either starts with `0`, otherwise by length first. -/
def compareRuns (dl dr : List Char) : Ordering :=
  if dl.head? = some '0' ∨ dr.head? = some '0' then compareLex dl dr
  else (compare dl.length dr.length).then (compareLex dl dr)

theorem length_dropWhile_cons_lt (p : Char → Bool) (a : Char) (as : List Char) (h : p a = true) :
    ((a :: as).dropWhile p).length < (a :: as).length := by
  rw [List.dropWhile_cons, if_pos h]
  have := (List.dropWhile_sublist (l := as) p).length_le
  simp; omega

set_option linter.unusedVariables false in
def compareNaturalChars (l r : List Char) : Ordering :=
  match hl : l.dropWhile isBlank, hr : r.dropWhile isBlank with
  | [], [] => .eq
  | _ :: _, [] => .gt
  | [], _ :: _ => .lt
  | a :: as, b :: bs =>
    if hd : a.isDigit = true ∧ b.isDigit = true then
      match compareRuns ((a :: as).takeWhile Char.isDigit) ((b :: bs).takeWhile Char.isDigit) with
      | .eq => compareNaturalChars ((a :: as).dropWhile Char.isDigit) ((b :: bs).dropWhile Char.isDigit)
      | o => o
    else if a = b then compareNaturalChars as bs
    else compare a.toNat b.toNat
termination_by l.length + r.length
decreasing_by
  · have h1 := length_dropWhile_cons_lt Char.isDigit a as hd.1
    have h2 := length_dropWhile_cons_lt Char.isDigit b bs hd.2
    have h3 := (List.dropWhile_sublist (l := l) isBlank).length_le
    have h4 := (List.dropWhile_sublist (l := r) isBlank).length_le
    rw [hl] at h3; rw [hr] at h4
    omega
  · have h3 := (List.dropWhile_sublist (l := l) isBlank).length_le
    have h4 := (List.dropWhile_sublist (l := r) isBlank).length_le
    rw [hl] at h3; rw [hr] at h4
    simp at h3 h4
    omega

def compareNatural (a b : String) : Ordering := compareNaturalChars a.toList b.toList

end Phenotyping.Text
