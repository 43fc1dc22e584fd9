import TableauSimplex.Grid
import TableauSimplex.Tableau.Basic

/-!
# Sheets that are no tableau

A sheet is a grid of rows and columns with the names and the basis of a tableau. It is a tableau
when there is a column for the right sides and every entry is a single number. Other sheets have no
columns, or blocks of numbers for entries. They can be looked at, but whatever needs a number fails:
a missing entry is out of range, and a block can neither be compared nor be read as a number.

* `Sheet`: a grid with names and a basis.
* `Sheet.isTableau`: whether the sheet is a tableau.
* `Sheet.leavingRow`, `Sheet.tryValueOf`, `Sheet.snapshot` and the like: what the questions to a
  tableau come to on a sheet that is none.
-/

namespace TableauSimplex

/-- A grid with the names and the basis of a tableau. The objective row is the last one. -/
structure Sheet where
  grid : Grid Float
  headers : List Name
  basis : List Int
  /-- The columns of artificial variables. -/
  artificial : List Int
  /-- The number of decision variables. -/
  numDecision : Nat

namespace Sheet

/-- The number of rows, with the objective row. -/
def rowCount (s : Sheet) : Nat := s.grid.lengths.getD 0 0

/-- The number of columns, with the right side. -/
def columnCount (s : Sheet) : Nat := s.grid.lengths.getD 1 0

/-- The number of numbers in an entry. -/
def blockSize (s : Sheet) : Nat := (s.grid.lengths.drop 2).foldl (· * ·) 1

/-- Whether there is a column for the right sides and every entry is a single number. -/
def isTableau (s : Sheet) : Bool := s.columnCount != 0 && s.blockSize == 1

/-- The fault of comparing an entry. -/
def comparison (s : Sheet) : Error := .noComparison (s.blockSize == 0)

/-- The fault of asking for an entry: that it is missing, or else the given one. -/
def entryFault (s : Sheet) (row : Nat) (col : Int) (fault : Error) : Error :=
  if row < s.rowCount && (place? s.columnCount col).isSome then fault else .outOfRange

/-- The fault of reading the objective value. -/
def objectiveFault (s : Sheet) : Error := s.entryFault (s.rowCount - 1) (-1) .wrongKind

/-- The fault of looking for an entering column. The least number is found first, and its place is
then taken for a column. -/
def enteringFault (s : Sheet) : Error :=
  let costs := s.grid.entries.drop ((s.rowCount - 1) * s.columnCount * s.blockSize)
  match leastPosition (costs.take ((s.columnCount - 1) * s.blockSize)) with
  | none => .noColumns
  | some (j, _) => if j < s.columnCount - 1 then s.comparison else .outOfRange

/-- The row that bounds the growth of a column. Without rows there is none. -/
def leavingRow (s : Sheet) (col : Int) : Except Error (Option Nat) :=
  if s.rowCount ≤ 1 then .ok none else .error (s.entryFault 0 col s.comparison)

/-- The value of the variable in a column. It is zero for a column that is not basic. -/
def tryValueOf (s : Sheet) (col : Int) : Except Error Float :=
  match s.basis.idxOf? col with
  | some row => .error (s.entryFault row (-1) .wrongKind)
  | none => .ok 0

/-- The values of the decision variables. -/
def tryValues (s : Sheet) : Except Error (List Float) :=
  (List.range s.numDecision).mapM fun (j : Nat) => s.tryValueOf j

/-- Whether a basic artificial variable is positive. There is none if none is basic. -/
def hasPositiveArtificial (s : Sheet) : Except Error Bool :=
  match s.basis.zipIdx.find? fun (col, _) => s.artificial.contains col with
  | some (_, row) => .error (s.entryFault row (-1) s.comparison)
  | none => .ok false

/-- The nonbasic columns of zero reduced cost. There are none if all columns are basic. -/
def zeroCostColumns (s : Sheet) : Except Error (List Nat) :=
  if (List.range (s.columnCount - 1)).all fun j => s.basis.contains (j : Int) then .ok []
  else .error s.comparison

/-- The values after a pivot on a column. A column that no row admits needs a name. -/
def valuesAfter (s : Sheet) (col : Int) : Except Error (Option (List Float)) := do
  let _ ← s.leavingRow col
  let _ ← nameAt s.headers col
  return none

/-- The fault of a pivot. -/
def pivotFault (s : Sheet) (row : Nat) (col : Int) : Error := s.entryFault row col s.comparison

/-- A record of the names of a sheet. Its rows are blank: they hold none of the entries. -/
def snapshot (s : Sheet) (number : Int) (entering : Option Int) (leaving : Option Name)
    (pivotRow : Option Int) : Except Error (Iteration Float) := do
  let basis ← s.basis.mapM (nameAt s.headers)
  let name ← entering.mapM (nameAt s.headers)
  let blank : Row Float := ⟨[], 0⟩
  return ⟨number, s.headers, blank, List.replicate (s.rowCount - 1) blank, basis, name, leaving,
    pivotRow, entering⟩

end Sheet

end TableauSimplex
