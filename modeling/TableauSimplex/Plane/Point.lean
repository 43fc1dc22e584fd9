import TableauSimplex.Scalar

/-!
# Points and lines of the plane

* `Point`: a point, which may carry the objective value there.
* `Line`: the line `a x + b y = rhs`.
* `Point.before`: the order by the first coordinate, then by the second.
-/

namespace TableauSimplex.Plane

/-- A point of the plane. -/
structure Point (α : Type) where
  x : α
  y : α
  value : Option α := none
  deriving Repr, DecidableEq

/-- The line `a x + b y = rhs`. -/
structure Line (α : Type) where
  a : α
  b : α
  rhs : α
  deriving Repr, DecidableEq

namespace Point

variable {α : Type} [Scalar α]

/-- Whether a point comes strictly before another, by the first coordinate, then by the second. -/
def before (p q : Point α) : Bool :=
  if p.x == q.x then p.y < q.y else p.x < q.x

/-- Whether both coordinates of two points differ by less than a tolerance. -/
def near (p q : Point α) (tol : α) : Bool :=
  Scalar.abs (p.x - q.x) < tol && Scalar.abs (p.y - q.y) < tol

end Point

end TableauSimplex.Plane
