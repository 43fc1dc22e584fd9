import TableauSimplex.Plane.Graph
import TableauSimplex.Tableau.Basic

/-!
# Solutions

A solution says how a solve ended and holds the numbers read off the tableau it ended with, whatever
the ending was.

* `Status`: the endings.
* `Solution`: the answer.
* `Solution.valueMap`: the value of every name, if every name may stand for a value.
-/

namespace TableauSimplex

/-- How a solve ended. -/
inductive Status where
  | optimal
  | infeasible
  | unbounded
  | nonConvergent
  | nodeLimit
  deriving Repr, DecidableEq

/-- The word for a status. -/
def Status.word : Status → String
  | .optimal => "optimal"
  | .infeasible => "infeasible"
  | .unbounded => "unbounded"
  | .nonConvergent => "non_convergent"
  | .nodeLimit => "node_limit"

/-- The answer to a program. -/
structure Solution (α : Type) where
  status : Status
  objectiveValue : α
  names : List Name
  values : List α
  shadowPrices : List α
  iterations : List (Iteration α)
  /-- Whether a nonbasic column of zero reduced cost is a sign of other optima. -/
  multiple : Bool
  /-- The values at another optimal vertex. -/
  alternate : Option (List α)
  graph : Option (Plane.Graph α)

/-- Whether a name is made of one piece. -/
def Name.isAtomic : Name → Bool
  | .list _ | .object _ => false
  | _ => true

/-- Whether two names are the same. Truth values count as zero and one, and a whole number is the
same name as the decimal equal to it. -/
def Name.same (a b : Name) : Bool :=
  match number? a, number? b with
  | some x, some y => x == y
  | none, none =>
    match a, b with
    | .text s, .text t => s == t
    | .null, .null => true
    | .decimal x, .decimal y => x == y
    | _, _ => false
  | _, _ => false
where
  /-- The number that a name is, if it is one. -/
  number? : Name → Option Rat
    | .bool b => some (if b then 1 else 0)
    | .whole n => some n
    | .decimal x => (Scalar.exact x).toOption
    | _ => none

namespace Solution

variable {α : Type}

/-- Whether the solve ended at a proven optimum. -/
def isOptimal (s : Solution α) : Bool := s.status == .optimal

/-- The value of every name. A name that is repeated keeps its first place and its last value. Lists
and objects cannot be looked up by. -/
def valueMap (s : Solution α) : Except Error (List (Name × α)) :=
  let entries := s.names.zip s.values
  if entries.all (·.1.isAtomic) then
    .ok (entries.foldl (fun known (name, value) =>
      if known.any (·.1.same name) then
        known.map fun entry => if entry.1.same name then (entry.1, value) else entry
      else known ++ [(name, value)]) [])
  else .error .wrongKind

end Solution

end TableauSimplex
