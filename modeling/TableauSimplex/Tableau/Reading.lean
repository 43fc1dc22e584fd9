import TableauSimplex.Problem.Basic
import TableauSimplex.Tableau.Basic

/-!
# Reading a tableau

A final tableau gives the values of the variables, the objective value and the marginal prices of
the constraints, and shows whether artificial variables are left and whether other optima exist.

* `Tableau.values`, `Tableau.objectiveValue`, `Tableau.shadowPrices`: the numbers of a solution.
* `Tableau.hasPositiveArtificial`: whether an artificial variable is left in the solution.
* `Tableau.otherOptimum`: a second optimal vertex, one pivot away.
-/

namespace TableauSimplex.Tableau

variable {α : Type} [Scalar α]

/-- The objective value in the sense of the program. -/
def objectiveValue (t : Tableau α) : α := if t.minimize then -t.objective.rhs else t.objective.rhs

/-- The value of the variable in a column: the right side of the row it is basic in, else zero. -/
def valueOf (t : Tableau α) (col : Nat) : α :=
  match (t.basis.zip t.rows).find? (·.1 == (col : Int)) with
  | some (_, row) => row.rhs
  | none => 0

/-- The values of the decision variables. -/
def values (t : Tableau α) : List α := (List.range t.numDecision).map t.valueOf

/-- The right side of the row with a number; the objective row comes after the others. -/
def tryRhs (t : Tableau α) (row : Nat) : Except Error α :=
  if row ≤ t.rows.length then .ok (t.rowAt row).rhs else .error .outOfRange

/-- The value of the variable in a column, when the basis may have more entries than there are
rows. The entry after those of the rows belongs to the objective row. -/
def tryValueOf (t : Tableau α) (col : Int) : Except Error α :=
  match t.basis.idxOf? col with
  | some row => t.tryRhs row
  | none => .ok 0

/-- The values of the decision variables, when the basis may have more entries than there are
rows. -/
def tryValues (t : Tableau α) : Except Error (List α) :=
  (List.range t.numDecision).mapM fun (j : Nat) => t.tryValueOf j

/-- The reduced cost of the column that constraint `i` has in a list, if it has one there. -/
def reducedCost (t : Tableau α) (cols : List (Option Nat)) (i : Nat) : α :=
  match (cols[i]?).join with
  | some col => t.objective.entry col
  | none => 0

/-- For every constraint, the place of the column of its artificial variable, if it has one. -/
def artificialPlaces (t : Tableau α) : List (Option Nat) :=
  t.artificialCols.map fun col => col.bind Int.toNat?

/-- The change of the objective row per unit of the right side of constraint `i`. It is read off
the slack, off the negated surplus, or off the artificial variable without its penalty. -/
def marginalCost (t : Tableau α) (i : Nat) : Sign → α
  | .atMost => t.reducedCost t.slackCols i
  | .atLeast => -t.reducedCost t.surplusCols i
  | .equal => t.reducedCost t.artificialPlaces i - t.penalty

/-- The change of the objective per unit of the right side of each constraint. -/
def shadowPrices (t : Tableau α) (p : Problem α) : List α :=
  let flip : α := if t.minimize then -1 else 1
  p.constraints.mapIdx fun i c => flip * t.marginalCost i c.sign

/-- Whether a column belongs to an artificial variable. -/
def isArtificial (t : Tableau α) (col : Int) : Bool := t.artificialIndices.contains col

/-- Whether a basic artificial variable is above the tolerance. -/
def hasPositiveArtificial (t : Tableau α) (tol : α) : Bool :=
  (t.basis.zip t.rows).any fun (col, row) => t.isArtificial col && tol < row.rhs

/-- Whether a basic artificial variable is above the tolerance, when the basis may have more entries
than there are rows. The first such variable ends the search. -/
def tryHasPositiveArtificial (t : Tableau α) (tol : α) : Except Error Bool :=
  t.basis.zipIdx.anyM fun (col, row) => do
    if t.isArtificial col then return tol < (← t.tryRhs row) else return false

/-- The nonbasic columns whose reduced cost is below the tolerance in size. -/
def zeroCostColumns (t : Tableau α) (tol : α) : List Nat :=
  (List.range t.numColumns).filter fun j =>
    !t.basis.contains (j : Int) && Scalar.abs (t.objective.entry j) < tol

/-- The values after one pivot on a column, if some row admits it. A column that no row admits needs
a name, to be reported by. -/
def valuesAfter (t : Tableau α) (col : Int) (ratio : α) : Except Error (Option (List α)) := do
  match ← t.tryLeavingRow col ratio with
  | none =>
    let _ ← t.headerAt col
    return none
  | some row =>
    match t.tryPivot row col with
    | (next, none) => some <$> next.tryValues
    | (_, some cause) => throw cause

/-- Whether a column of zero reduced cost is a sign of other optima, and the values after a pivot
on the first such column, if some row admits it. -/
def otherOptimum (t : Tableau α) (reducedCost ratio : α) :
    Except Error (Bool × Option (List α)) :=
  match t.zeroCostColumns reducedCost with
  | [] => .ok (false, none)
  | col :: _ => (true, ·) <$> t.valuesAfter col ratio

end TableauSimplex.Tableau
