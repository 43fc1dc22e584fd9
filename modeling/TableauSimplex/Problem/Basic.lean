import TableauSimplex.Error

/-!
# Linear programs

A linear program asks for the greatest or least value of a linear objective over the points with
nonnegative coordinates that satisfy linear constraints. Nothing here forces the lengths of the
lists to agree: sums run as far as both lists go.

* `Problem`, `Constraint`: a program and its constraints.
* `Constraint.isSatisfied`, `Problem.isFeasible`: whether a point is admitted, up to a tolerance.
* `Equation`: a constraint or an objective line with names in place, and its text.
-/

namespace TableauSimplex

/-- The name of a variable, as the model writes it. Most names are text, but any value will do. -/
abbrev Name := Json.Value

/-- A name made of a letter and a number. -/
def Name.numbered (letter : String) (number : Nat) : Name := .text (letter ++ toString number)

/-- As many names with one letter, numbered from one on. -/
def numberedNames (letter : String) (count : Nat) : List Name :=
  (List.range count).map fun k => Name.numbered letter (k + 1)

/-- The direction of optimization. -/
inductive Sense where
  | maximize
  | minimize
  deriving Repr, DecidableEq

namespace Sense

/-- The word for a sense. -/
def word : Sense → String
  | maximize => "max"
  | minimize => "min"

/-- The other sense. -/
def flipped : Sense → Sense
  | maximize => minimize
  | minimize => maximize

/-- The sense that a value is the word for. -/
def ofJson : Json.Value → Except Error Sense
  | .text "max" => .ok maximize
  | .text "min" => .ok minimize
  | v => .error (.naming .unknownSense v)

end Sense

/-- The relation of the left side of a constraint to the right side. -/
inductive Sign where
  | atMost
  | atLeast
  | equal
  deriving Repr, DecidableEq

namespace Sign

/-- The symbol of a relation. -/
def symbol : Sign → String
  | atMost => "<="
  | atLeast => ">="
  | equal => "="

/-- The relation that a value is the symbol of. -/
def ofJson : Json.Value → Except Error Sign
  | .text "<=" => .ok atMost
  | .text ">=" => .ok atLeast
  | .text "=" => .ok equal
  | v => .error (.naming .unknownSign v)

end Sign

/-! ## Equations -/

/-- A linear relation with names in place of positions. -/
structure Equation (α : Type) where
  terms : List (α × Name)
  sign : Sign
  rhs : α

namespace Equation

/-- Terms joined by plus signs, each a coefficient right before its name. -/
def termsText (terms : List (Float × Name)) : String :=
  " + ".intercalate (terms.map fun (a, name) => coefficientText a ++ name.display)

/-- The text of an equation. -/
def text (e : Equation Float) : String :=
  termsText e.terms ++ " " ++ e.sign.symbol ++ " " ++ coefficientText e.rhs

end Equation

/-! ## Constraints -/

/-- A linear constraint on the variables, by position. -/
structure Constraint (α : Type) where
  coefficients : List α
  sign : Sign
  rhs : α

namespace Constraint

variable {α : Type} [Scalar α]

/-- The left side at a point. -/
def lhs (c : Constraint α) (point : List α) : α := Scalar.dot c.coefficients point

/-- Whether a point satisfies the constraint up to a tolerance. -/
def isSatisfied (c : Constraint α) (point : List α) (tol : α) : Bool :=
  match c.sign with
  | .atMost => c.lhs point ≤ c.rhs + tol
  | .atLeast => c.rhs - tol ≤ c.lhs point
  | .equal => Scalar.abs (c.lhs point - c.rhs) ≤ tol

/-- The constraint with the given names. -/
def equation (c : Constraint α) (names : List Name) : Equation α :=
  ⟨c.coefficients.zip names, c.sign, c.rhs⟩

end Constraint

/-! ## Programs -/

/-- A linear program. -/
structure Problem (α : Type) where
  sense : Sense
  names : List Name
  objective : List α
  constraints : List (Constraint α)

namespace Problem

/-- The number of variables. -/
def numVars {α : Type} (p : Problem α) : Nat := p.names.length

variable {α : Type} [Scalar α]

/-- The objective at a point. -/
def objectiveAt (p : Problem α) (point : List α) : α := Scalar.dot p.objective point

/-- Whether a point is nonnegative and satisfies every constraint, up to a tolerance. -/
def isFeasible (p : Problem α) (point : List α) (tol : α) : Bool :=
  !point.any (fun x => x < -tol) && p.constraints.all (·.isSatisfied point tol)

end Problem

end TableauSimplex
