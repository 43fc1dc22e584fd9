import TableauSimplex.Scalar

/-!
# Rows

A row stands for the equation `coefficients · x = rhs`. Rows are combined entry by entry, the right
side included.

* `Row.entry`: the entry of a column; the column after the last one is the right side.
* `Row.divide`, `Row.clear`: the two row operations of an elimination.
-/

namespace TableauSimplex

/-- The equation `coefficients · x = rhs`. -/
structure Row (α : Type) where
  coefficients : List α
  rhs : α
  deriving Repr, DecidableEq

namespace Row

variable {α : Type}

/-- The number of columns, without the right side. -/
def width (r : Row α) : Nat := r.coefficients.length

/-- The entry of a column. The columns end with the right side. -/
def entry (r : Row α) (col : Nat) : α := r.coefficients.getD col r.rhs

/-- The entries in order, the right side last. -/
def entries (r : Row α) : List α := r.coefficients ++ [r.rhs]

/-- The row with a function applied to every entry. -/
def map (f : α → α) (r : Row α) : Row α := ⟨r.coefficients.map f, f r.rhs⟩

/-- Two rows combined entry by entry. -/
def zipWith (f : α → α → α) (r s : Row α) : Row α :=
  ⟨List.zipWith f r.coefficients s.coefficients, f r.rhs s.rhs⟩

variable [Scalar α]

/-- Every entry divided by a number. -/
def divide (r : Row α) (d : α) : Row α := r.map (· / d)

/-- The row minus a multiple of another one. -/
def subMul (r : Row α) (k : α) (s : Row α) : Row α := r.zipWith (fun a b => a - k * b) s

/-- The row without its part in a column, given a row whose entry there is one. -/
def clear (r : Row α) (unit : Row α) (col : Nat) : Row α :=
  let k := r.entry col
  if k == 0 then r else r.subMul k unit

end Row

end TableauSimplex
