import TableauSimplex.Grid
import TableauSimplex.Problem.Document

/-!
# Grids in documents

A grid is written as nested lists of numbers. Before its entries count, its shape has to be known:
the lengths of the nested lists, as far as they agree.

* `Shape.of`: the common lengths of nested lists, and whether the lists agree to the full depth.
* `entriesOf`, `lengthsOf`: the numbers of a grid, and its lengths.
* `systemOf`: a square system.
* `gridValue`: a grid as nested lists.
-/

namespace TableauSimplex.Json

/-- The lengths of nested lists, and whether they hold at every depth. -/
structure Shape where
  lengths : List Nat
  isFull : Bool
  deriving Repr, DecidableEq

namespace Shape

/-- The longest common front of two lists. -/
def commonFront : List Nat → List Nat → List Nat
  | m :: ms, n :: ns => if m = n then m :: commonFront ms ns else []
  | _, _ => []

/-- The shape that two neighbours have in common. -/
def meet (a b : Shape) : Shape :=
  ⟨commonFront a.lengths b.lengths, a.isFull && b.isFull && a.lengths == b.lengths⟩

/-- The shape of a list of `count` parts that have a shape in common. -/
def stack (count : Nat) : List Shape → Shape
  | [] => ⟨[count], true⟩
  | first :: rest =>
    let common := rest.foldl meet first
    ⟨count :: common.lengths, common.isFull⟩

mutual

/-- The shape of a value. Anything but a list is a single entry. -/
def of : Value → Shape
  | .list items => stack items.length (ofItems items)
  | _ => ⟨[], true⟩

/-- The shapes of values. -/
def ofItems : List Value → List Shape
  | [] => []
  | v :: rest => of v :: ofItems rest

end

end Shape

mutual

/-- The numbers in nested lists, in order. -/
def entriesOf : Value → Except Error (List Float)
  | .list items => entriesOfItems items
  | v => List.singleton <$> doubleOf v

/-- The numbers in nested lists, one value after the other. -/
def entriesOfItems : List Value → Except Error (List Float)
  | [] => .ok []
  | v :: rest => do return (← entriesOf v) ++ (← entriesOfItems rest)

end

/-- The most lists that may stand inside each other in a grid. -/
def axisLimit : Nat := 64

/-- The lengths of a grid. -/
def lengthsOf (v : Value) : Except Error (List Nat) :=
  let shape := Shape.of v
  let lengths := shape.lengths.take axisLimit
  if shape.isFull && shape.lengths.length ≤ axisLimit then .ok lengths
  else if lengths.length = axisLimit then .error (.tooManyAxes axisLimit)
  else .error (.ragged lengths)

/-- The matrix and the right sides of a square system. All numbers are read first, then both shapes
are looked at; the shape of the matrix is held against the right sides last. -/
def systemOf (matrix sides : Value) : Except Error (List (List Float) × Grid Float) := do
  let entries ← entriesOf matrix
  let sideEntries ← entriesOf sides
  let lengths ← lengthsOf matrix
  let sideLengths ← lengthsOf sides
  match sideLengths with
  | [] => throw .wrongKind
  | size :: _ =>
    if lengths = [size, size] then return (rowsOf size size entries, ⟨sideLengths, sideEntries⟩)
    else throw (.notSquare size lengths)

/-- Nested lists of the given lengths, filled with values in order. -/
def nested (values : List Value) : List Nat → Value
  | [] => values.headD .null
  | [_] => .list values
  | count :: lengths =>
    .list ((rowsOf (lengths.foldl (· * ·) 1) count values).map fun part => nested part lengths)

/-- A grid as nested lists. -/
def gridValue {α : Type} (write : α → Value) (g : Grid α) : Value :=
  nested (g.entries.map write) g.lengths

end TableauSimplex.Json
