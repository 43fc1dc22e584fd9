/-!
# The front of a list

A list in order starts with the elements that pass a test and goes on with those that fail it. The
number of the former is found with few tests: by steps that grow, and then by halving. Where the
elements that pass are scattered, the answer depends on the places that are tried, and so these are
part of the definitions.

* `halve`: the number of elements that pass, known to lie between two numbers.
* `stride`: two places that this number lies between.
* `frontCount`: the number of elements at the front that pass.
-/

namespace TableauSimplex.Sorting

variable {β : Type}

/-- Whether the element at a place passes. -/
def passesAt (test : β → Bool) (xs : List β) (place : Nat) : Bool := xs[place]?.any test

/-- The middle of the places from `low` to below `high`. Of two middle places it is the later one,
but the earlier one in a list that is another list read from its end. -/
def middle (fromEnd : Bool) (low high : Nat) : Nat :=
  if fromEnd then (low + high - 1) / 2 else (low + high) / 2

/-- The number of elements that pass, at least `low` and at most `high`, by halving. -/
def halve (fromEnd : Bool) (test : β → Bool) (xs : List β) (low high : Nat) : Nat :=
  if low < high then
    let place := middle fromEnd low high
    if passesAt test xs place then halve fromEnd test xs (place + 1) high
    else halve fromEnd test xs low place
  else low
termination_by high - low
decreasing_by all_goals simp only [middle]; split <;> omega

/-- The last place tried that passes and the next place, which fails or lies outside. The distance
to the next place grows twofold. -/
def stride (test : β → Bool) (xs : List β) (last next : Nat) : Nat × Nat :=
  if next < xs.length ∧ passesAt test xs next then stride test xs next (2 * next + 1)
  else (last, next)
termination_by xs.length - next

/-- The number of elements at the front that pass. -/
def frontCount (fromEnd : Bool) (test : β → Bool) (xs : List β) : Nat :=
  if passesAt test xs 0 then
    let (last, next) := stride test xs 0 1
    halve fromEnd test xs (last + 1) (Nat.min next xs.length)
  else 0

end TableauSimplex.Sorting
