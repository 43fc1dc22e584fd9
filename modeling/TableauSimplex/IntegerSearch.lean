import TableauSimplex.Solution.Solve

/-!
# The search for integer solutions

Branch and bound looks for the best solution in whole numbers. A node is the program with some
bounds on single variables added. Its relaxation is solved; a node whose optimum is integral is a
candidate, and any other one is split on its most fractional variable into a node below and a node
above the fractional value. Nodes are kept on a stack, so that the upper half is searched first. A
node is dropped when the optimum of its parent does not improve on the best candidate.

* `Search`, `Node`: the state of a search and its open nodes.
* `Search.step`: one turn: the next node is taken off the stack and expanded.
* `Search.run`: all turns, up to the limit on nodes.
* `searchInteger`: the best integer solution, with the graph of the program.
-/

namespace TableauSimplex

/-- An open node: its constraints, the optimum of its parent's relaxation, and the number of bounds
added on the way to it. The root has no parent. -/
structure Node (α : Type) where
  constraints : List (Constraint α)
  bound : Option α
  depth : Nat

/-- The state of a search. -/
structure Search (α : Type) where
  /-- The open nodes, the next one first. -/
  stack : List (Node α)
  /-- The number of nodes taken off the stack. -/
  explored : Nat := 0
  /-- Whether the limit on nodes stopped the search. -/
  isExhausted : Bool := false
  /-- The solution of the first relaxation. -/
  root : Option (Solution α) := none
  /-- The best integer solution found so far. -/
  incumbent : Option (Solution α) := none
  log : List (Event α) := []

/-- What one turn of a search comes to. -/
inductive Turn (α : Type) where
  | running (next : Search α)
  | done (final : Search α)
  | failed (reached : Search α) (cause : Error)

variable {α : Type} [Scalar α]

/-- Whether a value is strictly better than the best one so far. -/
def Sense.improves (s : Sense) (z : α) : Option α → Bool
  | none => true
  | some best =>
    match s with
    | .maximize => best < z
    | .minimize => z < best

/-- The distance of a value to the nearest whole number. -/
def fractionality (x : α) : Except NotFinite α := do
  return Scalar.abs (x - Scalar.ofInt (← Scalar.round x))

/-- The position, from `start` on, of the value that is farthest from a whole number, if one is
farther than `worst`. The first of equals wins. -/
def mostFractionalFrom : Nat → Option Nat → α → List α → Except NotFinite (Option Nat)
  | _, found, _, [] => .ok found
  | j, found, worst, x :: rest => do
    let distance ← fractionality x
    if worst < distance then mostFractionalFrom (j + 1) (some j) distance rest
    else mostFractionalFrom (j + 1) found worst rest

/-- The position of the value that is farthest from a whole number, if one is farther than the
tolerance. -/
def mostFractional (values : List α) (tol : α) : Except NotFinite (Option Nat) :=
  mostFractionalFrom 0 none tol values

/-- The bound `x_j ≤ rhs` or `x_j ≥ rhs` as a constraint on `n` variables. -/
def boundConstraint (n j : Nat) (sign : Sign) (rhs : Int) : Constraint α :=
  ⟨(List.replicate n (0 : α)).set j 1, sign, Scalar.ofInt rhs⟩

namespace Search

/-- The search before its first turn. -/
def start (p : Problem α) : Search α := { stack := [⟨p.constraints, none, 0⟩] }

/-- The objective value of the best candidate. -/
def best (st : Search α) : Option α := st.incumbent.map (·.objectiveValue)

/-- Adds events to the log. -/
def note (st : Search α) (events : List (Event α)) : Search α := { st with log := st.log ++ events }

/-- Whether a node may hold a better solution than the best candidate. The optimum of its parent
bounds all it can hold. -/
def admits (p : Problem α) (st : Search α) (node : Node α) : Bool :=
  match node.bound with
  | none => true
  | some z => p.sense.improves z st.best

/-- The two halves of a node, split at a value of variable `j`. -/
def split (p : Problem α) (node : Node α) (z : α) (j : Nat) (value : α) :
    Except NotFinite (Node α × Node α) := do
  let low ← Scalar.floor value
  let high ← Scalar.ceil value
  let half (sign : Sign) (rhs : Int) : Node α :=
    ⟨node.constraints ++ [boundConstraint p.numVars j sign rhs], some z, node.depth + 1⟩
  return (half .atMost low, half .atLeast high)

/-- Goes on from an optimal relaxation that improves on the best candidate: it is a better candidate
if it is integral, and is split otherwise. -/
def descend (p : Problem α) (s : Settings α) (node : Node α) (result : Solution α) (st : Search α) :
    Turn α :=
  match mostFractional result.values s.integrality with
  | .error why => .failed st (.notFinite why)
  | .ok none =>
    .running ({ st with incumbent := some result }.note
      [.incumbent st.explored result.objectiveValue])
  | .ok (some j) =>
    let value := result.values.getD j 0
    match split p node result.objectiveValue j value with
    | .error why => .failed st (.notFinite why)
    | .ok (low, high) =>
      .running ({ st with stack := high :: low :: st.stack }.note
        [.branched st.explored node.depth (p.names.getD j .null) value])

/-- Solves the relaxation of a node. -/
def expand (p : Problem α) (s : Settings α) (node : Node α) (st : Search α) : Turn α :=
  match solveLogged { p with constraints := node.constraints } s false with
  | .error cause => .failed st cause
  | .ok (result, events) =>
    let st := { st with root := st.root.or (some result) }.note events
    if !result.isOptimal then .running (st.note [.pruned st.explored result.status])
    else if !p.sense.improves result.objectiveValue st.best then .running st
    else descend p s node result st

/-- One turn: the limit is looked at first, then the next node is taken off the stack. -/
def step (p : Problem α) (s : Settings α) (st : Search α) : Turn α :=
  match st.stack with
  | [] => .done st
  | node :: rest =>
    if s.maxNodes.reachedBy st.explored then
      .done ({ st with isExhausted := true }.note [.searchStopped st.explored st.stack.length])
    else
      let st := { st with stack := rest, explored := st.explored + 1 }
      if st.admits p node then expand p s node st else .running st

/-- Turns until the search ends. A search that is out of turns was stopped too. -/
def loop (p : Problem α) (s : Settings α) : Nat → Search α → Search α × Option Error
  | 0, st => ({ st with isExhausted := true }, none)
  | fuel + 1, st =>
    match st.step p s with
    | .running next => loop p s fuel next
    | .done final => (final, none)
    | .failed reached cause => (reached, some cause)

/-- The whole search. Every turn but the last one counts a node, so that the limit on nodes bounds
the number of turns and they do not run out. -/
def run (p : Problem α) (s : Settings α) : Search α × Option Error :=
  loop p s (s.maxNodes.steps + 1) (start p)

/-- The best candidate. Where the limit on nodes stopped the search it is not proven optimal. -/
def answer (st : Search α) : Option (Solution α) :=
  st.incumbent.map fun s => if st.isExhausted then { s with status := .nodeLimit } else s

end Search

/-- The graph of the root relaxation with the integer point marked, for programs with two
variables. -/
def withIntegerGraph (p : Problem α) (s : Settings α) (root best : Solution α) :
    Except Error (Solution α) := do
  match ← Plane.graph p root.values root.objectiveValue s with
  | none => return best
  | some graph =>
    match best.values with
    | x :: y :: _ =>
      let point : Plane.Point α := ⟨x, y, some best.objectiveValue⟩
      return { best with graph := some { graph with integerOptimum := some point } }
    | _ => throw .outOfRange

/-- A search that has ended, and its answer. -/
structure SearchResult (α : Type) where
  search : Search α
  answer : Except Error (Option (Solution α))

/-- The best integer solution of a program. -/
def searchInteger (p : Problem α) (s : Settings α) : SearchResult α :=
  match Search.run p s with
  | (st, some cause) => ⟨st, .error cause⟩
  | (st, none) =>
    let st := st.note [.searched st.explored st.best]
    match st.answer, st.root with
    | some best, some root => ⟨st, some <$> withIntegerGraph p s root best⟩
    | best, _ => ⟨st, .ok best⟩

end TableauSimplex
