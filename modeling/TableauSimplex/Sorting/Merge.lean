import TableauSimplex.Sorting.Front

/-!
# Merging two runs

Two runs are merged by taking elements from their fronts one by one. When the same run has won often
enough in a row, whole fronts are taken from both in turn, as long as these are long. The number of
wins that is often enough goes down while that pays and up when it does not, and it is passed on to
the next merge.

The shorter run decides the direction: two runs are merged from their fronts, or else from their
ends. From the ends the lists are read the other way around, and so is the test.

* `Merging`: two lists in the course of merging.
* `mergeFronts`: two lists merged from their fronts.
* `mergeRuns`: two neighbouring runs merged in the direction that their lengths ask for.
-/

namespace TableauSimplex.Sorting

variable {β : Type}

/-- Two lists in the course of merging, and what has been taken from them. Where the test does not
tell two elements apart, the first list goes first. -/
structure Merging (β : Type) where
  merged : List β
  first : List β
  second : List β

namespace Merging

/-- Some elements taken from the first list. -/
def takeFirst (m : Merging β) (count : Nat) : Merging β :=
  ⟨m.merged ++ m.first.take count, m.first.drop count, m.second⟩

/-- Some elements taken from the second list. -/
def takeSecond (m : Merging β) (count : Nat) : Merging β :=
  ⟨m.merged ++ m.second.take count, m.first, m.second.drop count⟩

/-- Whether the rest goes without a test: the second list is used up, or at most one element of the
first list is left, which is known to be the last of all. -/
def isDone (m : Merging β) : Bool := m.second.isEmpty || m.first.length ≤ 1

/-- What has been taken and the rest. A single element left of the first list goes last. -/
def finish (m : Merging β) : List β :=
  match m.first with
  | [x] => m.merged ++ m.second ++ [x]
  | rest => m.merged ++ rest ++ m.second

/-- Elements taken one by one, until one of the lists has won `limit` times in a row. The lists have
won `firsts` and `seconds` times in a row so far. -/
def oneByOne (before : β → β → Bool) (limit firsts seconds : Nat) (m : Merging β) : Merging β :=
  match hf : m.first, hs : m.second with
  | x :: _, y :: _ =>
    if before y x then
      let next := m.takeSecond 1
      if next.isDone || limit ≤ seconds + 1 then next
      else next.oneByOne before limit 0 (seconds + 1)
    else
      let next := m.takeFirst 1
      if next.isDone || limit ≤ firsts + 1 then next
      else next.oneByOne before limit (firsts + 1) 0
  | _, _ => m
termination_by m.first.length + m.second.length
decreasing_by all_goals simp [takeFirst, takeSecond, hf, hs]

/-- The front of the first list up to the head of the second, and that head, taken; with the length
of the front. -/
def leapFirst (before : β → β → Bool) (fromEnd : Bool) (m : Merging β) : Merging β × Nat :=
  match m.second with
  | [] => (m, 0)
  | y :: _ =>
    let count := frontCount fromEnd (fun x => !before y x) m.first
    let next := m.takeFirst count
    (if next.isDone then next else next.takeSecond 1, count)

/-- The front of the second list up to the head of the first, and that head, taken; with the length
of the front. -/
def leapSecond (before : β → β → Bool) (fromEnd : Bool) (m : Merging β) : Merging β × Nat :=
  match m.first with
  | [] => (m, 0)
  | x :: _ =>
    let count := frontCount fromEnd (fun y => before y x) m.second
    let next := m.takeSecond count
    (if next.isDone then next else next.takeFirst 1, count)

/-- The length from which on a front is long. It is also the limit on wins to start with. -/
def longFront : Nat := 7

/-- Fronts taken in turn as long as one of two is long, with the limit that is left. Each turn but
the first lowers the limit, and leaving raises it. The run that is the left one of the two starts.
Every turn takes an element, and `fuel` turns are made at most. -/
def leaps (before : β → β → Bool) (fromEnd : Bool) :
    Nat → Nat → Merging β → Merging β × Nat
  | 0, limit, m => (m, limit)
  | fuel + 1, limit, m =>
    let (m, count) := if fromEnd then m.leapSecond before true else m.leapFirst before false
    if m.isDone then (m, limit)
    else
      let (m, other) := if fromEnd then m.leapFirst before true else m.leapSecond before false
      if m.isDone then (m, limit)
      else if longFront ≤ count || longFront ≤ other then
        leaps before fromEnd fuel (Nat.max 1 (limit - 1)) m
      else (m, limit + 1)

/-- The merged list and the limit that is left. Elements are taken one by one and by fronts in turn.
Every turn takes an element, and `fuel` turns are made at most. -/
def run (before : β → β → Bool) (fromEnd : Bool) : Nat → Nat → Merging β → List β × Nat
  | 0, limit, m => (m.finish, limit)
  | fuel + 1, limit, m =>
    if m.isDone then (m.finish, limit)
    else
      let m := m.oneByOne before limit 0 0
      if m.isDone then (m.finish, limit)
      else
        let (m, limit) := leaps before fromEnd (m.first.length + m.second.length) limit m
        run before fromEnd fuel limit m

end Merging

/-- Two lists merged from their fronts, where the head of the second is known to come first. -/
def mergeFronts (before : β → β → Bool) (fromEnd : Bool) (limit : Nat) (first second : List β) :
    List β × Nat :=
  Merging.run before fromEnd (first.length + second.length) limit
    ((Merging.mk [] first second).takeSecond 1)

/-- Two neighbouring runs merged, and the limit that is left. The front of the left run and the end
of the right run that are in their places stay there. -/
def mergeRuns (before : β → β → Bool) (limit : Nat) (left right : List β) : List β × Nat :=
  match left.getLast?, right.head? with
  | some last, some head =>
    let skipped := frontCount false (fun x => !before head x) left
    let spared := frontCount true (fun y => !before y last) right.reverse
    let first := left.drop skipped
    let second := right.take (right.length - spared)
    if first.isEmpty || second.isEmpty then (left ++ right, limit)
    else
      let (merged, limit) :=
        if first.length ≤ second.length then mergeFronts before false limit first second
        else
          let (reversed, limit) :=
            mergeFronts (fun a b => before b a) true limit second.reverse first.reverse
          (reversed.reverse, limit)
      (left.take skipped ++ merged ++ right.drop (right.length - spared), limit)
  | _, _ => (left ++ right, limit)

end TableauSimplex.Sorting
