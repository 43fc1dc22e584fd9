import TableauSimplex.Plane.Point
import TableauSimplex.Sorting.Insertion
import TableauSimplex.Settings

/-!
# Lines inside a square

A plot shows the square from the origin to a limit on both axes. A line is drawn between the two
points where it meets the border of the square.

* `Line.clip`: the ends of the part of a line inside the square; `Line.tryClip` refuses to divide
  by zero for it.
* `plotLimit`: the size of a square that holds given points.
-/

namespace TableauSimplex.Plane

variable {α : Type} [Scalar α]

/-- The points where a line meets the four border lines of a square. A border line is left out when
the line is parallel to it up to a tolerance. -/
def Line.borderPoints (l : Line α) (limit tol : α) : List (Point α) :=
  (if tol < Scalar.abs l.b then
    [{ x := 0, y := l.rhs / l.b }, { x := limit, y := (l.rhs - l.a * limit) / l.b }] else []) ++
  (if tol < Scalar.abs l.a then
    [{ x := l.rhs / l.a, y := 0 }, { x := (l.rhs - l.b * limit) / l.a, y := limit }] else [])

/-- How far outside the square a point still counts as inside. -/
def slackOf (limit : α) : α := 1e-9 * Scalar.max 1 limit

/-- Whether a point lies in the square, up to the slack. -/
def Point.isInside (p : Point α) (limit slack : α) : Bool :=
  -slack ≤ p.x && p.x ≤ limit + slack && -slack ≤ p.y && p.y ≤ limit + slack

/-- The two ends of the part of a line inside a square. There is one end when the line only touches
the square, and none when it misses it. -/
def Line.clip (l : Line α) (limit tol : α) : List (Point α) :=
  let slack := slackOf limit
  let inside :=
    Sorting.insertionSort Point.before ((l.borderPoints limit tol).filter (·.isInside limit slack))
  match inside, inside.getLast? with
  | first :: _ :: _, some last =>
    if Scalar.abs (first.x - last.x) ≤ slack && Scalar.abs (first.y - last.y) ≤ slack then [first]
    else [first, last]
  | _, _ => inside

/-- The two ends of the part of a line inside a square, for a tolerance of any sign. Below zero the
tolerance lets a coefficient of zero pass as a divisor, which is refused. -/
def Line.tryClip (l : Line α) (limit tol : α) : Except Error (List (Point α)) :=
  let dividesByZero (c : α) : Bool := tol < Scalar.abs c && c == 0
  if dividesByZero l.a || dividesByZero l.b then .error .zeroDivisor else .ok (l.clip limit tol)

/-- The size of a square that holds the optimum and the vertices with a margin. -/
def plotLimit (vertices : List (Point α)) (optimum : Point α) (s : Settings α) : α :=
  let coordinates := vertices.flatMap fun p => [p.x, p.y]
  (optimum.y :: s.minPlotExtent :: coordinates).foldl Scalar.max optimum.x * s.plotMargin

end TableauSimplex.Plane
