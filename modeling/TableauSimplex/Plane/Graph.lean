import TableauSimplex.Plane.Clip
import TableauSimplex.Plane.Vertices

/-!
# The graph of a program with two variables

A graph shows the feasible region, a line for every constraint, the objective line through the
optimum, and the optimum itself. When a program is also solved in whole numbers, the best integer
point is marked on the same graph.

* `Graph`, `PlotLine`: what is drawn.
* `graph`: the graph of a program at a solution, for programs with two variables.
-/

namespace TableauSimplex.Plane

/-- A line to draw, with its ends, its color and the equation it stands for. -/
structure PlotLine (α : Type) where
  name : String
  points : List (Point α)
  color : String
  equation : Equation α

/-- The graph of a program with two variables. -/
structure Graph (α : Type) where
  vertices : List (Point α)
  constraints : List (PlotLine α)
  objectiveLine : PlotLine α
  optimum : Point α
  integerOptimum : Option (Point α) := none

/-- The colors that constraint lines take in turn. -/
def palette : List String := ["#ef4444", "#3b82f6", "#f59e0b", "#8b5cf6", "#ec4899", "#06b6d4"]

/-- The color of the objective line. -/
def objectiveColor : String := "#000000"

/-- The color of a constraint line by its number. The palette repeats in both directions. -/
def constraintColor (index : Int) : String :=
  palette.getD (index % palette.length).toNat objectiveColor

variable {α : Type} [Scalar α]

/-- The line of constraint number `i`. -/
def constraintLine (p : Problem α) (limit tol : α) (i : Nat) (c : Constraint α) :
    Except Error (PlotLine α) := do
  return {
    name := "R" ++ toString (i + 1)
    points := (← boundary c).clip limit tol
    color := constraintColor i
    equation := c.equation p.names }

/-- The objective line through a point with the given objective value. -/
def objectiveLine (p : Problem α) (z limit tol : α) : Except Error (PlotLine α) :=
  match p.objective with
  | [a, b] => .ok {
      name := "Z"
      points := (Line.mk a b z).clip limit tol
      color := objectiveColor
      equation := ⟨p.objective.zip p.names, .equal, z⟩ }
  | objective =>
    .error (if objective.length < 2 then .tooFew 2 objective.length else .tooMany 2)

/-- The graph of a program at a solution with objective value `z`. Only programs with two variables
have one. -/
def graph (p : Problem α) (values : List α) (z : α) (s : Settings α) :
    Except Error (Option (Graph α)) := do
  if p.numVars != 2 then return none
  let vertices ← feasibleVertices p s
  let optimum : Point α ← match values with
    | x :: y :: _ => pure ⟨x, y, some z⟩
    | _ => throw .outOfRange
  let limit := plotLimit vertices optimum s
  let constraints ← p.constraints.zipIdx.mapM fun (c, i) => constraintLine p limit s.parallel i c
  let objectiveLine ← objectiveLine p z limit s.parallel
  return some { vertices, constraints, objectiveLine, optimum }

end TableauSimplex.Plane
