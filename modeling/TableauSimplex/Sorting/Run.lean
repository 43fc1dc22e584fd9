import TableauSimplex.Sorting.Front

/-!
# Runs

A run is a stretch of a list that is in order. A list is cut into runs from the left: each is the
longest front that is in order already, or in falling order and then turned around. Short runs take
in some elements more, which find their places by halving.

* `sortedFront`: the longest front in order, or in falling order and turned around, and the rest.
* `takeRun`: a run of at least a given length, and the rest.
* `runsOf`: the runs of a list.
-/

namespace TableauSimplex.Sorting

variable {β : Type}

/-- The longest front of `x :: xs` in which neighbours are related, and the rest. -/
def spanRelated (related : β → β → Bool) (x : β) : List β → List β × List β
  | [] => ([x], [])
  | y :: rest =>
    if related x y then
      let (front, left) := spanRelated related y rest
      (x :: front, left)
    else ([x], y :: rest)

/-- The longest front of a list that is in order, and the rest. A front in falling order is turned
around. -/
def sortedFront (before : β → β → Bool) : List β → List β × List β
  | x :: y :: rest =>
    if before y x then
      let (front, left) := spanRelated (fun a b => before b a) x (y :: rest)
      (front.reverse, left)
    else spanRelated (fun a b => !before b a) x (y :: rest)
  | xs => (xs, [])

/-- A run with one more element, after all that it does not come before. -/
def extendRun (before : β → β → Bool) (run : List β) (x : β) : List β :=
  let place := halve false (fun y => !before x y) run 0 run.length
  run.take place ++ x :: run.drop place

/-- The first run of a list, and the rest. A run of fewer than `least` elements takes in elements of
the rest, as far as there are any. -/
def takeRun (before : β → β → Bool) (least : Nat) (xs : List β) : List β × List β :=
  let (front, rest) := sortedFront before xs
  let missing := least - front.length
  ((rest.take missing).foldl (extendRun before) front, rest.drop missing)

/-- The least length of the runs of `n` elements: `n` halved until it is below 64, rounded up. The
number of runs is then a power of two or just below one. -/
def leastRun (n : Nat) : Nat :=
  let parts := 1 <<< (Nat.log2 n - 5)
  (n + parts - 1) / parts

/-- The runs of a list. Every run has an element, so that there are no more runs than elements, and
so many are looked for. -/
def runsOf (before : β → β → Bool) (least : Nat) : Nat → List β → List (List β)
  | 0, _ => []
  | _ + 1, [] => []
  | count + 1, x :: xs =>
    let (run, rest) := takeRun before least (x :: xs)
    run :: runsOf before least count rest

end TableauSimplex.Sorting
