import TableauSimplex.Number.Binary

/-!
# Numbers to compute with

The simplex method, the search for integer solutions and the geometry are written once, for any
type with arithmetic and decidable comparisons. Doubles run the program; rationals give the exact
answers that the doubles approximate.

* `Scalar`: the operations in use.
* `Scalar.floor`, `Scalar.ceil`, `Scalar.round`: whole numbers near a value, by its exact value.
* `Scalar.sum`, `Scalar.dot`: sums added from the left, starting from zero.
-/

namespace TableauSimplex

/-- Why a value has no exact rational value. -/
inductive NotFinite where
  | nan
  | infinite
  deriving Repr, DecidableEq

/-- A type of numbers. Comparisons may all fail for a value, as they do for not-a-number. -/
class Scalar (α : Type) extends Zero α, One α, Add α, Sub α, Mul α, Div α, Neg α, LT α, LE α,
    BEq α, OfScientific α where
  decLt : DecidableLT α
  decLe : DecidableLE α
  /-- The absolute value. -/
  abs : α → α
  /-- A whole number. -/
  ofInt : Int → α
  /-- The exact value. -/
  exact : α → Except NotFinite Rat
  /-- The product of a list. -/
  product : List α → α
  /-- Whether the value lies below positive infinity. -/
  belowInfinity : α → Bool
  /-- Whether a direction has an angle, so that it can be compared with others. -/
  hasAngle : α × α → Bool
  /-- Whether the direction `(x, y)` comes strictly before `(x', y')` in the order of angles, from
  just above minus a half turn to a half turn. -/
  angleLt : α × α → α × α → Bool

attribute [reducible, instance] Scalar.decLt Scalar.decLe

namespace Scalar

/-- The nearest whole number, a half going to the even neighbour. -/
def roundRat (r : Rat) : Int :=
  let low := r.floor
  let rest := r - low
  if rest < 1 / 2 then low
  else if 1 / 2 < rest then low + 1
  else if low % 2 == 0 then low else low + 1

variable {α : Type} [Scalar α]

/-- Whether the value has an exact rational value. -/
def isFinite (x : α) : Bool := (exact x).isOk

/-- The greatest whole number not above the value. -/
def floor (x : α) : Except NotFinite Int := Rat.floor <$> exact x

/-- The least whole number not below the value. -/
def ceil (x : α) : Except NotFinite Int := Rat.ceil <$> exact x

/-- The nearest whole number, a half going to the even neighbour. -/
def round (x : α) : Except NotFinite Int := roundRat <$> exact x

/-- The sum of a list, added from the left to a starting zero. -/
def sum (xs : List α) : α := xs.foldl (· + ·) 0

/-- The sum of the products of two lists, as far as both go. -/
def dot (xs ys : List α) : α := sum (List.zipWith (· * ·) xs ys)

/-- The greater of two values; the first one unless the second is above it. -/
def max (x y : α) : α := if x < y then y else x

end Scalar

/-! ## Doubles -/

/-- The exact value of a double. -/
def exactDouble (x : Float) : Except NotFinite Rat :=
  match Binary.ofFloat x with
  | .nan => .error .nan
  | .infinite _ => .error .infinite
  | .finite false m e => .ok (Binary.magnitude m e)
  | .finite true m e => .ok (-Binary.magnitude m e)

/-- The product of doubles, from their signs and the sum of the logarithms of their sizes. Only the
product itself can leave the range of doubles: no part of it does so on the way. -/
def productOfDoubles (xs : List Float) : Float :=
  let sign := xs.foldl (fun sign x => if x < 0.0 then -sign else sign) 1.0
  let logSize := xs.foldl (fun total x => total + x.abs.log) 0.0
  sign * logSize.exp

instance : Scalar Float where
  zero := 0.0
  one := 1.0
  add := Float.add
  sub := Float.sub
  mul := Float.mul
  div := Float.div
  neg := Float.neg
  decLt := Float.decLt
  decLe := Float.decLe
  abs := Float.abs
  ofInt := Float.ofInt
  exact := exactDouble
  product := productOfDoubles
  belowInfinity x := x < 1.0 / 0.0
  hasAngle p := p.2.atan2 p.1 == p.2.atan2 p.1
  angleLt p q := p.2.atan2 p.1 < q.2.atan2 q.1

/-! ## Rationals -/

/-- The part of the turn that a direction belongs to: below the axis, along it to the right, above
it, along it to the left. Angles grow from part to part. -/
def turnPart (p : Rat × Rat) : Nat :=
  if p.2 < 0 then 0
  else if p.2 = 0 then (if p.1 < 0 then 3 else 1)
  else 2

/-- Directions in one part of the turn are compared by the side of the first that the second lies
on. -/
def turnsBefore (p q : Rat × Rat) : Bool :=
  turnPart p < turnPart q || (turnPart p == turnPart q && 0 < p.1 * q.2 - p.2 * q.1)

instance : Scalar Rat where
  zero := 0
  one := 1
  decLt := inferInstance
  decLe := inferInstance
  abs := Rat.abs
  ofInt n := n
  exact := .ok
  product xs := xs.foldl (· * ·) 1
  belowInfinity _ := true
  hasAngle _ := true
  angleLt := turnsBefore

end TableauSimplex
