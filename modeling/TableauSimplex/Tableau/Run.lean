import TableauSimplex.Settings
import TableauSimplex.Tableau.Basic

/-!
# Runs of the simplex method

A run pivots until no column may enter, and keeps a record of every tableau it passes through. It
stops early when no row bounds the entering column or when the limit on pivots is reached with a
column still to enter. In every case the tableau and the records reached so far are kept.

* `Run.start`: a run that has made no pivot yet.
* `Run.step`: one pivot.
* `Run.finish`: pivots until the run ends, with the cause if it ended early.
-/

namespace TableauSimplex

/-- A run: the present tableau, and the records of all tableaux from the first one on. -/
structure Run (α : Type) where
  tableau : Tableau α
  iterations : List (Iteration α)

/-- What one step of a run comes to. -/
inductive Step (α : Type) where
  /-- No column may enter. -/
  | optimal
  /-- A pivot was made. -/
  | pivoted (next : Run α)
  /-- The step failed and left the run as given. -/
  | failed (reached : Run α) (cause : Error)

namespace Run

variable {α : Type}

/-- The number of pivots made. -/
def pivots (r : Run α) : Nat := r.iterations.length - 1

variable [Scalar α]

/-- A run from a tableau, which is recorded with the number zero. -/
def start (t : Tableau α) : Except Error (Run α) := do
  return ⟨t, [← t.snapshot 0 none none none]⟩

/-- Pivots on a column and a row and records the new tableau. -/
def pivotOn (r : Run α) (row col : Nat) : Step α :=
  match (r.tableau.basis[row]?).bind (itemAt? r.tableau.headers) with
  | none => .failed r .outOfRange
  | some leaving =>
    match r.tableau.tryPivot row col with
    | (next, some cause) => .failed { r with tableau := next } cause
    | (next, none) =>
      match next.snapshot r.iterations.length (some (col : Int)) (some leaving) (some row) with
      | .ok iteration => .pivoted ⟨next, r.iterations ++ [iteration]⟩
      | .error cause => .failed { r with tableau := next } cause

/-- One step: the entering column is chosen first, then the leaving row. -/
def step (s : Settings α) (r : Run α) : Step α :=
  match r.tableau.enteringColumn s.entering with
  | .error cause => .failed r cause
  | .ok none => .optimal
  | .ok (some col) =>
    match r.tableau.leavingRow col s.ratio with
    | some row => r.pivotOn row col
    | none =>
      match r.tableau.headers[col]? with
      | some name => .failed r (.unbounded name)
      | none => .failed r .outOfRange

/-- Whether the limit on pivots is reached with a column still to enter. -/
def isStuck (s : Settings α) (r : Run α) : Bool :=
  s.maxIterations.reachedBy r.pivots &&
    match r.tableau.enteringColumn s.entering with
    | .ok none => false
    | _ => true

/-- Steps until the run ends. The limit is looked at after every pivot, so that a run that goes on
from its limit makes one more. A run that is out of steps did not converge. -/
def loop (s : Settings α) : Nat → Run α → Run α × Option Error
  | 0, r => (r, some (.noConvergence s.maxIterations))
  | fuel + 1, r =>
    match r.step s with
    | .optimal => (r, none)
    | .failed reached cause => (reached, some cause)
    | .pivoted next =>
      if next.isStuck s then (next, some (.noConvergence s.maxIterations)) else loop s fuel next

/-- Pivots until the run ends. The limit on pivots bounds the number of steps, so that they do not
run out. -/
def finish (s : Settings α) (r : Run α) : Run α × Option Error :=
  loop s (s.maxIterations.steps + 2) r

end Run

end TableauSimplex
