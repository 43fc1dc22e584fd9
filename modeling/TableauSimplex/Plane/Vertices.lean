import TableauSimplex.Elimination
import TableauSimplex.Plane.Point
import TableauSimplex.Problem.Basic
import TableauSimplex.Settings
import TableauSimplex.Sorting.Insertion
import TableauSimplex.Sorting.Natural

/-!
# The vertices of a feasible region

In a program with two variables every vertex of the feasible region lies on two of the boundary
lines: those of the constraints and the two axes. The vertices are the intersections that satisfy
all constraints, each taken once, in the order of the angles around their centroid.

* `Line.intersect`: the point that two lines share, unless they are parallel.
* `corners`: the feasible intersections, in the order in which they are found.
* `aroundCentroid`: points in the order of their angles.
* `feasibleVertices`: the two together.
-/

namespace TableauSimplex.Plane

/-- All pairs of elements at different positions, the earlier one first. -/
def pairs {β : Type} : List β → List (β × β)
  | [] => []
  | x :: rest => rest.map (x, ·) ++ pairs rest

variable {α : Type} [Scalar α]

/-- The point that two lines share, unless their determinant is too small. -/
def Line.intersect (l m : Line α) (tol : α) : Option (Point α) :=
  match solveRows [⟨[l.a, l.b], l.rhs⟩, ⟨[m.a, m.b], m.rhs⟩] tol with
  | .ok [x, y] => some { x, y }
  | _ => none

/-- The boundary line of a constraint on two variables. -/
def boundary (c : Constraint α) : Except Error (Line α) :=
  match c.coefficients with
  | a :: b :: _ => .ok ⟨a, b, c.rhs⟩
  | _ => .error .outOfRange

/-- The axes `x = 0` and `y = 0`. -/
def axes : List (Line α) := [⟨1, 0, 0⟩, ⟨0, 1, 0⟩]

/-- The boundary lines of a program, the axes last. -/
def boundaries (p : Problem α) : Except Error (List (Line α)) := do
  return (← p.constraints.mapM boundary) ++ axes

/-- The feasible points among the intersections of lines. A point near one found before is left
out. -/
def corners (p : Problem α) (lines : List (Line α)) (s : Settings α) : List (Point α) :=
  (pairs lines).foldl (fun found (l, m) =>
    match l.intersect m s.parallel with
    | none => found
    | some point =>
      if p.isFeasible [point.x, point.y] s.feasibility &&
          !found.any (fun q => point.near q s.duplicate) then found ++ [point]
      else found) []

/-- The mean of a coordinate. -/
def mean (xs : List α) : α := Scalar.sum xs / Scalar.ofInt xs.length

/-- Points in the order of the angles under which they are seen from their centroid. A point without
an angle, which only an infinite one brings about, comes neither before nor after any other; the
order is then the one that a sort by runs arrives at. -/
def aroundCentroid (points : List (Point α)) : List (Point α) :=
  let cx := mean (points.map (·.x))
  let cy := mean (points.map (·.y))
  let direction (p : Point α) : α × α := (p.x - cx, p.y - cy)
  let before (p q : Point α) : Bool := Scalar.angleLt (direction p) (direction q)
  if points.all fun p => Scalar.hasAngle (direction p) then Sorting.insertionSort before points
  else Sorting.naturalSort before points

/-- The vertices of the feasible region of a program with two variables. -/
def feasibleVertices (p : Problem α) (s : Settings α) : Except Error (List (Point α)) := do
  return aroundCentroid (corners p (← boundaries p) s)

end TableauSimplex.Plane
