import TableauSimplex.Error
import TableauSimplex.Grid
import TableauSimplex.Tableau.Row

/-!
# Square linear systems

A system is solved by elimination with partial pivoting: in every column the entry of the largest
size is brought to the top, the first of equals, and the column is cleared below it.

* `Triangle.ofRows`: the triangular system that elimination arrives at.
* `Triangle.determinant`, `Triangle.solution`: what is read off it.
* `matrixLengths`: the shape of a matrix that is given as a list of rows.
* `solveSystem`: the solution of a system whose determinant is not below a tolerance.
* `solveGrid`: the solutions for many right sides at once.
-/

namespace TableauSimplex

/-- One row of a triangular system: the entry on the diagonal and those to the right of it. -/
structure TriangleRow (α : Type) where
  pivot : α
  rest : List α
  rhs : α
  deriving Repr, DecidableEq

/-- A triangular system, and whether an odd number of rows was exchanged on the way to it. -/
structure Triangle (α : Type) where
  isOdd : Bool
  rows : List (TriangleRow α)
  deriving Repr, DecidableEq

variable {α : Type} [Scalar α]

/-- The position and size of the entry of the largest size, the first of equals. -/
def largestPosition : Nat → Nat × α → List α → Nat × α
  | _, best, [] => best
  | i, best, x :: rest =>
    largestPosition (i + 1) (if best.2 < Scalar.abs x then (i, Scalar.abs x) else best) rest

/-- The first entry of a row. -/
def Row.head (r : Row α) : α := r.entry 0

/-- A row without its first entry. -/
def Row.tail (r : Row α) : Row α := { r with coefficients := r.coefficients.tail }

/-- The row to pivot on and the other ones: it changes places with the first row. -/
def choosePivot (first : Row α) (rest : List (Row α)) : Bool × Row α × List (Row α) :=
  let found := largestPosition 1 (0, Scalar.abs first.head) (rest.map Row.head)
  match found.1 with
  | 0 => (false, first, rest)
  | k + 1 => (true, rest.getD k first, rest.set k first)

/-- A row with its first entry cleared by the row pivoted on, given the inverse of the pivot. -/
def eliminateHead (inverse : α) (pivot r : Row α) : Row α :=
  r.tail.subMul (r.head * inverse) pivot.tail

/-- The triangular system of `n` rows, unless a pivot is zero. -/
def Triangle.ofRows : Nat → List (Row α) → Option (Triangle α)
  | 0, _ => some ⟨false, []⟩
  | _ + 1, [] => some ⟨false, []⟩
  | n + 1, first :: rest =>
    let (swapped, pivot, others) := choosePivot first rest
    if pivot.head == 0 then none
    else
      let below := others.map (eliminateHead (1 / pivot.head) pivot)
      (Triangle.ofRows n below).map fun t =>
        ⟨t.isOdd != swapped, ⟨pivot.head, pivot.tail.coefficients, pivot.rhs⟩ :: t.rows⟩

namespace Triangle

/-- The determinant: the product of the diagonal, negated for an odd number of exchanges. -/
def determinant (t : Triangle α) : α :=
  let product := Scalar.product (t.rows.map (·.pivot))
  if t.isOdd then -product else product

/-- The unknowns from the last row up. The known ones are taken off the right side from the last
one on. -/
def solveRows : List (TriangleRow α) → List α
  | [] => []
  | r :: below =>
    let known := solveRows below
    (r.rest.zip known).foldr (fun (a, x) b => b - a * x) r.rhs / r.pivot :: known

/-- The solution of a triangular system. -/
def solution (t : Triangle α) : List α := solveRows t.rows

end Triangle

/-- The determinant of a square system. -/
def determinant (rows : List (Row α)) : α :=
  match Triangle.ofRows rows.length rows with
  | some t => t.determinant
  | none => 0

/-- The solution of a square system, given as rows. A determinant below the tolerance in size is
refused, and so is a zero pivot. -/
def solveRows (rows : List (Row α)) (tol : α) : Except Error (List α) :=
  if Scalar.abs (determinant rows) < tol then .error .illConditioned
  else
    match Triangle.ofRows rows.length rows with
    | some t => .ok t.solution
    | none => .error .singular

/-- The lengths of the lists that a matrix is made of. Its rows have to agree in theirs; where there
are no rows, there is no second length. -/
def matrixLengths {β : Type} : List (List β) → Except Error (List Nat)
  | [] => .ok [0]
  | row :: rest =>
    if rest.all (·.length == row.length) then .ok [rest.length + 1, row.length]
    else .error (.ragged [rest.length + 1])

/-- The solution of `matrix · x = rhs`. The matrix has to be square and go with the right side. -/
def solveSystem (matrix : List (List α)) (rhs : List α) (tol : α) : Except Error (List α) := do
  let lengths ← matrixLengths matrix
  if lengths = [rhs.length, rhs.length] then solveRows (List.zipWith Row.mk matrix rhs) tol
  else throw (.notSquare rhs.length lengths)

/-- The solutions for `count` right sides, which are the columns of `sides`, as columns again. -/
def solveColumns (matrix sides : List (List α)) (count : Nat) (tol : α) :
    Except Error (List (List α)) := do
  let columns ← (List.range count).mapM fun k => solveSystem matrix (sides.map (·.getD k 0)) tol
  return (List.range sides.length).map fun i => columns.map (·.getD i 0)

/-- The solutions of a square system for a grid of right sides: a single one, or the columns of the
matrices that the grid is made of. The determinant is looked at first. -/
def solveGrid (matrix : List (List α)) (sides : Grid α) (tol : α) : Except Error (Grid α) := do
  let size := matrix.length
  match sides.lengths.reverse with
  | count :: height :: outer =>
    let zero := List.replicate size 0
    if Scalar.abs (determinant (List.zipWith Row.mk matrix zero)) < tol then throw .illConditioned
    if height ≠ size then throw (.sideMismatch height size)
    let parts := rowsOf (size * count) (outer.foldl (· * ·) 1) sides.entries
    let solutions ← parts.mapM fun part => solveColumns matrix (rowsOf count size part) count tol
    return { sides with entries := solutions.flatten.flatten }
  | _ => return { sides with entries := ← solveSystem matrix sides.entries tol }

end TableauSimplex
