import TableauSimplex.Json.Value
import TableauSimplex.Scalar

/-!
# Limits on steps

A run of pivots and a search for integer solutions both stop after a number of steps. The number is
whole as a rule; a decimal is reached by the first count that is not below it, and a yes counts as
one. Every limit is a number, so that some count reaches it.

* `Limit.reachedBy`: whether a count has reached the limit.
* `Limit.steps`: a whole number of steps after which the limit is reached.
* `Limit.ofDecimal`: the limit that a decimal stands for, whether it is a number or not.
-/

namespace TableauSimplex

/-- A limit on a number of steps: a whole number, a decimal that the count has to reach and that has
an exact value, or a truth value that stands for one or zero. -/
inductive Limit where
  | whole (n : Int)
  | decimal (x : Float) {value : Rat} {exact : Scalar.exact x = .ok value}
  | truth (b : Bool)

namespace Limit

/-- The limit as it is shown. -/
def text : Limit → String
  | whole n => toString n
  | decimal x => exactText x
  | truth b => Json.Value.truthName b

/-- The number that a limit is. -/
def value : Limit → Rat
  | whole n => n
  | @decimal _ value _ => value
  | truth b => b.toNat

/-- The number of steps after which the limit is reached. -/
def steps (limit : Limit) : Nat := limit.value.ceil.toNat

/-- Whether a count has reached the limit. -/
def reachedBy (limit : Limit) (count : Nat) : Bool := limit.value ≤ count

/-- Whether the limit leaves room for a first step. -/
def isPositive (limit : Limit) : Bool := 0 < limit.value

/-- A number of steps that no run lives to take. -/
def outOfReach : Nat := 1 <<< 64

/-- The limit that a decimal stands for. Minus infinity leaves no room, and the other decimals that
are no numbers are out of reach. -/
def ofDecimal (x : Float) : Limit :=
  match h : Scalar.exact x with
  | .ok value => @decimal x value h
  | .error _ => whole (if x < 0.0 then 0 else outOfReach)

end Limit

end TableauSimplex
