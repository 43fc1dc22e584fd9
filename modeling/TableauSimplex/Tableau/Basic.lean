import TableauSimplex.Error
import TableauSimplex.Position
import TableauSimplex.Problem.Basic
import TableauSimplex.Tableau.Row

/-!
# Simplex tableaux

A tableau holds one row per constraint and an objective row, over columns for the decision
variables and the auxiliary ones. Every constraint row has a basic column. The method looks for a
column to enter the basis and a row whose column leaves it, and pivots on the two.

* `Tableau.enteringColumn`: the column of the most negative reduced cost.
* `Tableau.leavingRow`: the row of the least ratio.
* `Tableau.pivot`: the row operations that make a column basic in a row; `Tableau.tryPivot` says
  when they are refused.
* `Iteration`, `Tableau.snapshot`: a record of a tableau and of the pivot that led to it.
-/

namespace TableauSimplex

/-- A tableau. The objective row holds reduced costs and, on its right side, the objective value. -/
structure Tableau (α : Type) where
  rows : List (Row α)
  objective : Row α
  headers : List Name
  /-- For every row, the column that is basic in it. A negative number takes its name from the end
  of the headers and stands for no column. -/
  basis : List Int
  /-- For every constraint, the column of its slack, if it has one. -/
  slackCols : List (Option Nat)
  /-- For every constraint, the column of its surplus, if it has one. -/
  surplusCols : List (Option Nat)
  /-- For every constraint, the column of its artificial variable, if it has one. A negative number
  stands for no column, as in the basis. -/
  artificialCols : List (Option Int)
  /-- The number of decision variables. They have the first columns. -/
  numDecision : Nat
  /-- Whether the objective was negated to be maximized. -/
  minimize : Bool
  /-- The penalty of the artificial variables. -/
  penalty : α

/-- A record of a tableau: its names and numbers, and the pivot that led to it, if one did. -/
structure Iteration (α : Type) where
  number : Int
  headers : List Name
  objective : Row α
  rows : List (Row α)
  basis : List Name
  entering : Option Name
  leaving : Option Name
  pivotRow : Option Int
  pivotCol : Option Int

/-- The position of the least number, with that number. The first of equals wins, and a value that
does not equal itself counts as the least of all. -/
def leastPosition {α : Type} [Scalar α] : List α → Option (Nat × α)
  | [] => none
  | x :: rest =>
    match leastPosition rest with
    | none => some (0, x)
    | some (j, y) => if x ≤ y || !(x == x) then some (0, x) else some (j + 1, y)

/-- The name at a position among headers. -/
def nameAt (headers : List Name) (position : Int) : Except Error Name :=
  match itemAt? headers position with
  | some name => .ok name
  | none => .error .outOfRange

namespace Tableau

variable {α : Type}

/-- The number of columns, without the right side. -/
def numColumns (t : Tableau α) : Nat := t.objective.width

/-- The columns of artificial variables, in the order of the constraints. -/
def artificialIndices (t : Tableau α) : List Int := t.artificialCols.filterMap id

/-- A row by its number; the objective row comes after the others. -/
def rowAt (t : Tableau α) (row : Nat) : Row α := t.rows.getD row t.objective

variable [Scalar α]

/-- The column with the least reduced cost, if that is below minus the tolerance. -/
def enteringColumn (t : Tableau α) (tol : α) : Except Error (Option Nat) :=
  match leastPosition t.objective.coefficients with
  | none => .error .noColumns
  | some (j, cost) => .ok (if cost < -tol then some j else none)

/-- The row with the least ratio among pairs of an entry and a right side, counted from `start`.
Only entries above the tolerance take part, and the first of equal ratios wins. -/
def leastRatio (tol : α) : Nat → Option (Nat × α) → List (α × α) → Option Nat
  | _, best, [] => best.map (·.1)
  | i, best, (entry, rhs) :: rest =>
    if tol < entry then
      let ratio := rhs / entry
      let wins := match best with
        | none => Scalar.belowInfinity ratio
        | some (_, least) => ratio < least
      leastRatio tol (i + 1) (if wins then some (i, ratio) else best) rest
    else leastRatio tol (i + 1) best rest

/-- The row that bounds the growth of a column first, if any row does. -/
def leavingRow (t : Tableau α) (col : Nat) (tol : α) : Option Nat :=
  leastRatio tol 0 none (t.rows.map fun r => (r.entry col, r.rhs))

/-- The place of a column among all columns, the right side last, if it lies in the tableau. -/
def columnAt? (t : Tableau α) (col : Int) : Option Nat := place? (t.numColumns + 1) col

/-- The row that bounds the growth of a column that may lie outside the tableau. Without rows no
column is looked at. -/
def tryLeavingRow (t : Tableau α) (col : Int) (tol : α) : Except Error (Option Nat) :=
  match t.columnAt? col with
  | some j => .ok (t.leavingRow j tol)
  | none => if t.rows.isEmpty then .ok none else .error .outOfRange

/-- Makes a column basic in a row: the row is divided by its entry in the column, and the column is
cleared from all other rows. -/
def pivot (t : Tableau α) (row col : Nat) : Tableau α :=
  let source := t.rowAt row
  let unit := source.divide (source.entry col)
  { t with
    rows := t.rows.mapIdx fun i r => if i = row then unit else r.clear unit col
    objective := if t.rows.length = row then unit else t.objective.clear unit col
    basis := t.basis.set row col }

/-- The tableau after an attempt to pivot, and the cause if it failed. Outside the tableau and on a
zero entry nothing is done. The column enters the basis as it was given. A row without a place in
the basis fails after the row operations. -/
def tryPivot (t : Tableau α) (row : Nat) (col : Int) : Tableau α × Option Error :=
  match t.columnAt? col with
  | none => (t, some .outOfRange)
  | some j =>
    if t.rows.length < row then (t, some .outOfRange)
    else if (t.rowAt row).entry j == 0 then (t, some .zeroPivot)
    else
      ({ t.pivot row j with basis := t.basis.set row col },
        if row < t.basis.length then none else some .outOfRange)

/-- The name of a column by its position among the headers. -/
def headerAt (t : Tableau α) (position : Int) : Except Error Name := nameAt t.headers position

/-- The names of the basic columns. -/
def basisNames (t : Tableau α) : Except Error (List Name) := t.basis.mapM t.headerAt

/-- A record of the tableau. The entering column is given by position and recorded by name too. -/
def snapshot (t : Tableau α) (number : Int) (entering : Option Int) (leaving : Option Name)
    (pivotRow : Option Int) : Except Error (Iteration α) := do
  let basis ← t.basisNames
  let name ← entering.mapM t.headerAt
  return ⟨number, t.headers, t.objective, t.rows, basis, name, leaving, pivotRow, entering⟩

end Tableau

end TableauSimplex
