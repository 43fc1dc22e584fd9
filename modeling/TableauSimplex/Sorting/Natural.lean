import TableauSimplex.Sorting.Merge
import TableauSimplex.Sorting.Run

/-!
# Sorting by runs

The runs of a list are merged into one. Which neighbours are merged first depends on the lengths of
the runs alone: the boundary between two runs has a power, which says how early halving the list,
its halves, and so on falls between the middles of the two. Boundaries of high power go first.

The result is the same as that of any other sort when the test orders all elements. When it does
not, the result depends on the elements that are compared, and these are the ones compared here.

* `boundaryPower`: the power of the boundary between two runs.
* `naturalSort`: the elements of a list, sorted by runs.
-/

namespace TableauSimplex.Sorting

variable {β : Type}

/-- A run that waits for its neighbours, with the power of the boundary after it. -/
structure Pending (β : Type) where
  run : List β
  power : Nat

/-- The runs that wait, the last one first, and the limit on wins in the next merge. -/
structure Stack (β : Type) where
  pending : List (Pending β)
  limit : Nat

/-- The power of the boundary between runs of lengths `left` and `right`, the left one starting at
`start`, in a list of `n` elements: the first depth at which halving tells their middles apart. -/
def boundaryPower (start left right n : Nat) : Nat :=
  let low := 2 * start + left
  let high := low + left + right
  ((List.range n).find? fun depth => (low <<< depth) / n != (high <<< depth) / n).getD n

namespace Stack

/-- The runs with their last ones merged, as long as the boundary before the last one has a power
above the given one. -/
def collapse (before : β → β → Bool) (power : Nat) (s : Stack β) : Stack β :=
  match _hp : s.pending with
  | last :: previous :: others =>
    if power < previous.power then
      let (merged, limit) := mergeRuns before s.limit previous.run last.run
      collapse before power ⟨⟨merged, previous.power⟩ :: others, limit⟩
    else s
  | _ => s
termination_by s.pending.length
decreasing_by simp [_hp]

/-- The runs with a new one in a list of `n` elements. -/
def push (before : β → β → Bool) (n : Nat) (s : Stack β) (new : List β) : Stack β :=
  match s.pending with
  | [] => ⟨[⟨new, 0⟩], s.limit⟩
  | last :: others =>
    let start := (others.flatMap (·.run)).length
    let power := boundaryPower start last.run.length new.length n
    let collapsed := s.collapse before power
    match collapsed.pending with
    | [] => ⟨[⟨new, 0⟩], collapsed.limit⟩
    | last :: others => ⟨⟨new, 0⟩ :: ⟨last.run, power⟩ :: others, collapsed.limit⟩

/-- All runs merged into one, the last two first, or the two before the last when the first of them
is shorter than the last. -/
def flatten (before : β → β → Bool) (s : Stack β) : List β :=
  match _hp : s.pending with
  | [] => []
  | [only] => only.run
  | [last, previous] => (mergeRuns before s.limit previous.run last.run).1
  | last :: previous :: earlier :: others =>
    if earlier.run.length < last.run.length then
      let (merged, limit) := mergeRuns before s.limit earlier.run previous.run
      flatten before ⟨last :: ⟨merged, earlier.power⟩ :: others, limit⟩
    else
      let (merged, limit) := mergeRuns before s.limit previous.run last.run
      flatten before ⟨⟨merged, previous.power⟩ :: earlier :: others, limit⟩
termination_by s.pending.length
decreasing_by all_goals simp [_hp]

end Stack

/-- The elements of a list, sorted by runs. -/
def naturalSort (before : β → β → Bool) (xs : List β) : List β :=
  let runs := runsOf before (leastRun xs.length) xs.length xs
  (runs.foldl (Stack.push before xs.length) ⟨[], Merging.longFront⟩).flatten before

end TableauSimplex.Sorting
