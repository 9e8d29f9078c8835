/-! # First repeated element

Tables that name their columns or channels refuse a name given twice, and report the first
name (reading left to right) that was already given. `firstRepeat` finds it; it is `none`
exactly when the list has no repeats.
-/
namespace Phenotyping
set_option autoImplicit false

/-- The first element of `xs` that equals an element before it, given the elements `seen`
before `xs`. -/
def firstRepeatAfter (seen : List String) : List String → Option String
  | [] => none
  | x :: xs => if x ∈ seen then some x else firstRepeatAfter (x :: seen) xs

/-- The first element of a list that equals an earlier one. -/
def firstRepeat (xs : List String) : Option String := firstRepeatAfter [] xs

end Phenotyping
