/-!
# Grids

A grid is a list of numbers with a shape: the lengths of the lists that hold it, from the outermost
one in. A vector has one length, a matrix has two.

* `Grid`: the lengths and the entries in order.
* `rowsOf`: entries cut into rows.
-/

namespace TableauSimplex

/-- Numbers with the lengths of the lists that hold them. -/
structure Grid (α : Type) where
  lengths : List Nat
  entries : List α
  deriving Repr, DecidableEq

/-- Entries in rows of a given width. -/
def rowsOf {α : Type} (width : Nat) : Nat → List α → List (List α)
  | 0, _ => []
  | n + 1, xs => xs.take width :: rowsOf width n (xs.drop width)

end TableauSimplex
