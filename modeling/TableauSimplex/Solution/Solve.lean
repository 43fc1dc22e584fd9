import TableauSimplex.Log
import TableauSimplex.Tableau.BigM
import TableauSimplex.Tableau.Reading
import TableauSimplex.Tableau.Run

/-!
# Solving a program

A program is solved by a run of the simplex method from its first tableau. A run that ends early is
an ending like any other: the solution is read off whatever tableau it stopped at.

* `Run.status`: the status that the end of a run stands for.
* `solveLogged`: the solution together with the events on the way.
* `solve`: the solution alone.
-/

namespace TableauSimplex

variable {α : Type} [Scalar α]

/-- The status that a run ends with: what stopped it early, or else whether an artificial variable
is left. Other causes are failures. -/
def Run.status (s : Settings α) (r : Run α) : Option Error → Except Error Status
  | none => .ok (if r.tableau.hasPositiveArtificial s.feasibility then .infeasible else .optimal)
  | some (.unbounded _) => .ok .unbounded
  | some (.noConvergence _) => .ok .nonConvergent
  | some cause => .error cause

/-- The event of an early end. -/
def stopEvent : Option Error → List (Event α)
  | some (.unbounded column) => [.unbounded column]
  | some (.noConvergence limit) => [.noConvergence limit]
  | _ => []

/-- The other optimum of an optimal run, and the event of looking for one in vain. -/
def Run.otherOptimum (s : Settings α) (r : Run α) :
    Status → Except Error ((Bool × Option (List α)) × List (Event α))
  | .optimal => do
    let found ← r.tableau.otherOptimum s.reducedCost s.ratio
    let header := (r.tableau.zeroCostColumns s.reducedCost).head?.bind (r.tableau.headers[·]?)
    match found, header with
    | (true, none), some column => return (found, [.noOtherVertex column])
    | _, _ => return (found, [])
  | _ => .ok ((false, none), [])

/-- The solution of a program and the events on the way to it. -/
def solveLogged (p : Problem α) (s : Settings α) (withGraph : Bool) :
    Except Error (Solution α × List (Event α)) := do
  let start ← Run.start (← Tableau.ofProblem p s.penalty)
  let (run, stop) := start.finish s
  let status ← run.status s stop
  let ((multiple, alternate), searchEvents) ← run.otherOptimum s status
  let values := run.tableau.values
  let z := run.tableau.objectiveValue
  let events := run.iterations.filterMap Event.ofIteration? ++ stopEvent stop ++ searchEvents ++
    [.solved status z run.pivots]
  let graph ← if withGraph then Plane.graph p values z s else pure none
  return ({
    status
    objectiveValue := z
    names := p.names
    values
    shadowPrices := run.tableau.shadowPrices p
    iterations := run.iterations
    multiple
    alternate
    graph }, events)

/-- The solution of a program. -/
def solve (p : Problem α) (s : Settings α) (withGraph : Bool) : Except Error (Solution α) :=
  Prod.fst <$> solveLogged p s withGraph

end TableauSimplex
