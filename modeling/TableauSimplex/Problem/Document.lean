import TableauSimplex.Number.Reader
import TableauSimplex.Problem.Basic

/-!
# Linear programs in documents

A document describes a program by the fields `c`, `A`, `b` and `senses`, and may add `maximize` and
`variables`. Wherever a list is asked for, a text stands for the list of its characters and an
object for the list of its keys.

* `doubleOf`: the number that a value stands for.
* `Constraint.ofParts`, `Problem.ofParts`: a constraint and a program from their parts.
* `Problem.ofDocument`: a program from a description, with every fault reported in a fixed order.
-/

namespace TableauSimplex

/-- The whole numbers of this size and above are beyond the range of doubles: they would round to
`2 ^ 1024` or more. -/
def doubleRange : Nat := (1 <<< 1024) - (1 <<< 970)

/-- The double that a value stands for. Whole numbers have to be in range; a text is read. -/
def doubleOf : Json.Value → Except Error Float
  | .whole n => if doubleRange ≤ n.natAbs then .error .tooLarge else .ok (Float.ofInt n)
  | .decimal x => .ok x
  | .bool b => .ok (if b then 1.0 else 0.0)
  | .text s =>
    match double? s with
    | some x => .ok x
    | none => .error (.notANumber s)
  | _ => .error .wrongKind

/-- The values that a value runs through. -/
def itemsOf (v : Json.Value) : Except Error (List Json.Value) :=
  match v.items? with
  | some items => .ok items
  | none => .error .wrongKind

/-- The numbers that a value runs through. -/
def doublesOf (v : Json.Value) : Except Error (List Float) := do
  (← itemsOf v).mapM doubleOf

/-- A constraint from its parts, read in the order coefficients, sign, right side. -/
def Constraint.ofParts (coefficients sign rhs : Json.Value) : Except Error (Constraint Float) := do
  let coefficients ← doublesOf coefficients
  let sign ← Sign.ofJson sign
  let rhs ← doubleOf rhs
  return ⟨coefficients, sign, rhs⟩

/-- A program from its parts, read in the order sense, names, objective. -/
def Problem.ofParts (sense names objective : Json.Value) (constraints : List (Constraint Float)) :
    Except Error (Problem Float) := do
  let sense ← Sense.ofJson sense
  let names ← itemsOf names
  let objective ← doublesOf objective
  return ⟨sense, names, objective, constraints⟩

/-! ## Descriptions -/

/-- A required field of a description. Only an object has fields. -/
def requiredField (document : Json.Value) (key : String) : Except Error Json.Value :=
  match document with
  | .object _ =>
    match document.field? key with
    | some v => .ok v
    | none => .error (.missingField key)
  | _ => .error .wrongKind

/-- The four lists of a description. -/
structure Lists where
  objective : List Float
  rows : List (List Float)
  bounds : List Float
  signs : List Json.Value

/-- The lists of a description, read in the order `c`, `A`, `b`, `senses`. -/
def Lists.ofDocument (document : Json.Value) : Except Error Lists := do
  let objective ← doublesOf (← requiredField document "c")
  let rows ← (← itemsOf (← requiredField document "A")).mapM doublesOf
  let bounds ← doublesOf (← requiredField document "b")
  let signs ← itemsOf (← requiredField document "senses")
  return ⟨objective, rows, bounds, signs⟩

/-- Says of a description whose fields are of the wrong kind that they are not lists. -/
def asLists {β : Type} : Except Error β → Except Error β
  | .error .wrongKind => .error .notLists
  | result => result

/-- The number of names that a value holds. Numbers and truth values hold none at all. -/
def nameCount (v : Json.Value) : Except Error Nat := List.length <$> itemsOf v

/-- The sense of a description, unless one is given: greatest, or least where `maximize` is a no. -/
def senseOf (document : Json.Value) : Option Json.Value → Json.Value
  | some sense => sense
  | none =>
    .text (if ((document.field? "maximize").getD (.bool true)).isTruthy then "max" else "min")

/-- The names of a description, numbered ones where it gives none. -/
def namesOf (document : Json.Value) (count : Nat) : Json.Value :=
  match document.field? "variables" with
  | some names => if names.isTruthy then names else .list (numberedNames "x" count)
  | none => .list (numberedNames "x" count)

/-- The constraint of a row. A sign that is none of the three is refused, but one that is nested too
deeply makes the reading fail. -/
def Constraint.ofRow (row : List Float) (sign : Json.Value) (bound : Float) :
    Except Error (Constraint Float) :=
  match Sign.ofJson sign with
  | .ok sign => .ok ⟨row, sign, bound⟩
  | .error .tooDeep => .error .tooDeep
  | .error _ => .error .badSigns

/-- The constraints of a description. -/
def constraintsOf (lists : Lists) : Except Error (List (Constraint Float)) :=
  (lists.rows.zip (lists.signs.zip lists.bounds)).mapM fun (row, sign, bound) =>
    Constraint.ofRow row sign bound

/-- The program that a document describes. A sense that is given replaces the one in the document.
The lists are read first; then their lengths, the names, the signs and the sense are checked. -/
def Problem.ofDocument (document : Json.Value) (sense : Option Json.Value) :
    Except Error (Problem Float) := do
  let lists ← asLists (Lists.ofDocument document)
  let count := lists.objective.length
  if lists.rows.length != lists.bounds.length || lists.bounds.length != lists.signs.length then
    throw .unequalConstraints
  if lists.rows.any (·.length != count) then
    throw .unequalRow
  let names := namesOf document count
  if (← nameCount names) != count then
    throw .unequalNames
  let constraints ← constraintsOf lists
  let sense ← Sense.ofJson (senseOf document sense)
  return ⟨sense, ← itemsOf names, lists.objective, constraints⟩

end TableauSimplex
