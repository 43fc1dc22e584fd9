import TableauSimplex.Tableau.Basic

/-!
# The first tableau of a program

Every constraint becomes an equation with auxiliary columns. An at-most constraint gets a slack,
which is basic. An at-least constraint gets a surplus with coefficient minus one and an artificial
variable, and an equality gets an artificial variable alone; the artificial variable is basic. The
columns are laid out by kind: decision variables, slacks, surpluses, artificial variables.

The objective row maximizes; a minimized objective is negated. Each artificial variable costs the
penalty, and that cost is eliminated from the objective row, so that basic columns have reduced
cost zero.

* `Auxiliary.ofSigns`: the auxiliary columns of each constraint.
* `Tableau.ofProblem`: the first tableau.
-/

namespace TableauSimplex

/-- The auxiliary columns of one constraint. -/
structure Auxiliary where
  slack : Option Nat
  surplus : Option Nat
  artificial : Option Nat
  deriving Repr, DecidableEq

namespace Auxiliary

/-- The auxiliary columns of constraints with the given signs, when the next slack, surplus and
artificial variable get the given columns. -/
def assign (slack surplus artificial : Nat) : List Sign → List Auxiliary
  | [] => []
  | .atMost :: rest => ⟨some slack, none, none⟩ :: assign (slack + 1) surplus artificial rest
  | .atLeast :: rest =>
    ⟨none, some surplus, some artificial⟩ :: assign slack (surplus + 1) (artificial + 1) rest
  | .equal :: rest => ⟨none, none, some artificial⟩ :: assign slack surplus (artificial + 1) rest

/-- The auxiliary columns of constraints with the given signs, after `n` decision columns. -/
def ofSigns (n : Nat) (signs : List Sign) : List Auxiliary :=
  let slacks := signs.countP (· == .atMost)
  let surpluses := signs.countP (· == .atLeast)
  assign n (n + slacks) (n + slacks + surpluses) signs

/-- The column that is basic at first. -/
def basic (a : Auxiliary) : Nat := (a.slack.or a.artificial).getD 0

variable {α : Type} [Scalar α]

/-- The coefficient of a constraint in an auxiliary column. -/
def coefficient (a : Auxiliary) (col : Nat) : α :=
  if a.slack = some col then 1
  else if a.surplus = some col then -1
  else if a.artificial = some col then 1
  else 0

end Auxiliary

/-- The names of the auxiliary columns: numbered slacks, surpluses and artificial variables. -/
def auxiliaryNames (signs : List Sign) : List Name :=
  numberedNames "s" (signs.countP (· == .atMost)) ++
    numberedNames "e" (signs.countP (· == .atLeast)) ++
    numberedNames "a" (signs.countP (· != .atMost))

/-- The entries for `columns` columns: as many as that, or a single one for all of them. -/
def fitColumns {α : Type} (columns : Nat) : List α → Except Error (List α)
  | [x] => .ok (List.replicate columns x)
  | xs => if xs.length = columns then .ok xs else .error (.widthMismatch xs.length columns)

namespace Tableau

variable {α : Type} [Scalar α]

/-- The row of a constraint over `n` decision and `extra` auxiliary columns. -/
def constraintRow (n extra : Nat) (c : Constraint α) (a : Auxiliary) : Except Error (Row α) := do
  let decision ← fitColumns n c.coefficients
  return ⟨decision ++ (List.range extra).map fun k => a.coefficient (n + k), c.rhs⟩

/-- The objective row with the cost of one artificial variable put in and eliminated again by the
row that the variable is basic in. -/
def penalize (penalty : α) (objective : Row α) (row : Row α) (col : Nat) : Row α :=
  { objective with coefficients := objective.coefficients.set col penalty }.subMul penalty row

/-- The objective row with the costs of all artificial variables eliminated. -/
def penalizeAll (penalty : α) (objective : Row α) (rows : List (Row α × Auxiliary)) : Row α :=
  rows.foldl (fun z (row, a) =>
    match a.artificial with
    | none => z
    | some col => penalize penalty z row col) objective

/-- The coefficients that are maximized. -/
def maximized (p : Problem α) : List α :=
  match p.sense with
  | .maximize => p.objective
  | .minimize => p.objective.map (-·)

/-- The first tableau of a program. -/
def ofProblem (p : Problem α) (penalty : α) : Except Error (Tableau α) := do
  let n := p.numVars
  let signs := p.constraints.map (·.sign)
  let auxiliary := Auxiliary.ofSigns n signs
  let names := auxiliaryNames signs
  let rows ← (p.constraints.zip auxiliary).mapM fun (c, a) => constraintRow n names.length c a
  let costs ← fitColumns n ((maximized p).map (-·))
  let objective : Row α := ⟨costs ++ List.replicate names.length 0, 0⟩
  return {
    rows
    objective := penalizeAll penalty objective (rows.zip auxiliary)
    headers := p.names ++ names
    basis := auxiliary.map fun a => (a.basic : Int)
    slackCols := auxiliary.map (·.slack)
    surplusCols := auxiliary.map (·.surplus)
    artificialCols := auxiliary.map fun a => a.artificial.map Int.ofNat
    numDecision := n
    minimize := p.sense == .minimize
    penalty }

end Tableau

end TableauSimplex
