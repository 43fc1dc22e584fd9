import TableauSimplex.Problem.Basic

/-!
# The dual of a program

The dual has a variable for every constraint and a constraint for every variable. All variables of
the program are nonnegative, so that the constraints of the dual all have the same sign; the signs
of the program's constraints become restrictions on the dual variables.

* `Dual.ofProblem`: the dual of a program.
* `Dual.lines`: the dual as text.
-/

namespace TableauSimplex

/-- What the values of a dual variable are restricted to. -/
inductive Restriction where
  | nonNegative
  | nonPositive
  | unrestricted
  deriving Repr, DecidableEq

namespace Restriction

/-- The words for a restriction. -/
def word : Restriction → String
  | nonNegative => ">= 0"
  | nonPositive => "<= 0"
  | unrestricted => "free"

/-- The restriction that a constraint puts on its dual variable. A constraint with the sign that is
natural for the sense gives a nonnegative variable. -/
def ofSign (sense : Sense) : Sign → Restriction
  | .equal => unrestricted
  | .atMost => if sense = .maximize then nonNegative else nonPositive
  | .atLeast => if sense = .minimize then nonNegative else nonPositive

end Restriction

/-- A dual program. -/
structure Dual (α : Type) where
  sense : Sense
  unknowns : List (Name × Restriction)
  constraints : List (Constraint α)
  objective : List α

namespace Dual

variable {α : Type}

/-- An entry that has to be there. -/
def entryAt (xs : List α) (j : Nat) : Except Error α :=
  match xs[j]? with
  | some x => .ok x
  | none => .error .outOfRange

/-- The sign of all constraints of the dual. -/
def constraintSign : Sense → Sign
  | .maximize => .atLeast
  | .minimize => .atMost

/-- The dual of a program. Every constraint needs a coefficient for every variable. -/
def ofProblem (p : Problem α) : Except Error (Dual α) := do
  let constraints ← (List.range p.numVars).mapM fun j => do
    let column ← p.constraints.mapM fun c => entryAt c.coefficients j
    return ⟨column, constraintSign p.sense, ← entryAt p.objective j⟩
  return {
    sense := p.sense.flipped
    unknowns := p.constraints.mapIdx fun i c =>
      (Name.numbered "y" (i + 1), Restriction.ofSign p.sense c.sign)
    constraints
    objective := p.constraints.map (·.rhs) }

/-- The text of a dual: the goal, the constraints, and the restrictions. -/
def lines (d : Dual Float) : List String :=
  let names := d.unknowns.map (·.1)
  let goal := match d.sense with
    | .minimize => "Minimize"
    | .maximize => "Maximize"
  let rows := d.constraints.map fun c => "  " ++ (c.equation names).text
  let restrictions := d.unknowns.map fun (name, r) => name.display ++ " " ++ r.word
  [goal ++ " W = " ++ Equation.termsText (d.objective.zip names), "subject to:"] ++ rows ++
    ["  " ++ ", ".intercalate restrictions]

end Dual

end TableauSimplex
