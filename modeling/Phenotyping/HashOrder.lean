/-! # The order in which a hash map visits its entries

The threshold store and the feature cache keep their entries in hash maps whose hasher
draws a random seed when the map is made. The order in which a map visits its entries is
therefore some permutation of them that no caller can predict. Listings sort the visited
entries stably in natural order, which fixes the result unless two keys tie; tied entries
come out in the order of the visit. This model visits the newest entry first, one of the
orders a map may take.
-/
namespace Phenotyping
set_option autoImplicit false

/-- A map's entries, kept in the order they were first stored, in the order the map visits
them. -/
def hashOrder {α : Type} (entries : List α) : List α := entries.reverse

theorem hashOrder_perm {α : Type} (entries : List α) : (hashOrder entries).Perm entries :=
  List.reverse_perm entries

end Phenotyping
