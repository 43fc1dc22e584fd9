import TableauSimplex.Number.Approximation
import TableauSimplex.Solution.Basic
import TableauSimplex.Tableau.Sheet

/-!
# Reports as text

Tableaux are printed as tables and results as a few labelled lines. All numbers are whole or
fractions.

* `Iteration.table`: the table of one tableau, with the pivot marked by a star. `Sheet.table` is the
  table of a sheet that is none.
* `Solution.summary`: the lines of a result.
-/

namespace TableauSimplex

/-! ## Tables -/

/-- The text that a name is. Tables have no room for other names. -/
def Name.text? : Name → Except Error String
  | .text s => .ok s
  | _ => .error .wrongKind

namespace Iteration

/-- The line above a table. Later tables name the pivot that led to them. -/
def title (i : Iteration Float) : Except Error String :=
  let name (n : Option Name) : String := (n.map Json.Value.display).getD "None"
  if i.number = 0 then .ok "Initial tableau (Iteration 0)"
  else
    match i.pivotRow with
    | none => .error .wrongKind
    | some row =>
      .ok (s!"Iteration {i.number}: " ++ name i.entering ++ " enters, " ++ name i.leaving ++
        s!" leaves (pivot row {row + 1}, column " ++ name i.entering ++ ")")

/-- The cells of a row after its name. -/
def cells (row : Row Float) : List String := row.entries.map fractionText

/-- The lines of a table before they are laid out: the rows with their basic names, the objective
row last. -/
def lines (i : Iteration Float) (cells : Row Float → List String) :
    Except Error (List (List String)) := do
  let names ← i.basis.mapM Name.text?
  return List.zipWith (fun name row => name :: cells row) names i.rows ++ ["Z" :: cells i.objective]

/-- The line with a star before the entry pivoted on, if it is the line of the pivot row. -/
def mark (i : Iteration Float) (number : Nat) (texts : List String) : Except Error (List String) :=
  if i.pivotRow = some (number : Int) then
    match i.pivotCol with
    | none => .error .wrongKind
    | some col =>
      match place? texts.length (col + 1) with
      | none => .error .outOfRange
      | some place => .ok (texts.modify place ("*" ++ ·))
  else .ok texts

/-- The least width of the columns of a table. -/
def leastWidth : Nat := 6

/-- A line of a table: every cell at the right end of its column. -/
def layLine (width : Nat) (line : List String) : String :=
  " ".intercalate (line.map (Text.padLeft width))

/-- The table of an iteration, given the cells of a row. The columns are two wider than the widest
cell. -/
def tableOf (i : Iteration Float) (cells : Row Float → List String) : Except Error String := do
  let title ← i.title
  let names ← i.headers.mapM Name.text?
  let headers := "BV" :: names ++ ["RHS"]
  let lines ← i.lines cells
  let widest := ((headers :: lines).flatten.map Text.width).foldl Nat.max 0
  let width := Nat.max leastWidth (widest + 2)
  let marked ← lines.zipIdx.mapM fun (line, number) => i.mark number line
  let rule := String.ofList (List.replicate (headers.length * (width + 1)) '-')
  return "\n".intercalate (title :: layLine width headers :: rule :: marked.map (layLine width))

/-- The table of an iteration. -/
def table (i : Iteration Float) : Except Error String := i.tableOf cells

end Iteration

/-- The table of a record of a sheet that is no tableau. Blocks of numbers have no text. -/
def Sheet.table (s : Sheet) (i : Iteration Float) : Except Error String :=
  if s.columnCount = 0 then i.tableOf fun _ => [] else .error .wrongKind

/-! ## Results -/

namespace Solution

/-- Names and values as equations. -/
def assignments (names : List Name) (values : List Float) : String :=
  ", ".intercalate (List.zipWith (fun n v => n.display ++ " = " ++ fractionText v) names values)

/-- The lines of a result under a heading. The numbers are shown when there is an optimum, or at
least a best value found. -/
def summaryLines (s : Solution Float) (heading : String) : List String :=
  let numbers := if s.isOptimal || s.status == .nodeLimit then
    [(if s.isOptimal then "Optimal value: " else "Best value found: ") ++
        fractionText s.objectiveValue,
      "Solution: " ++ assignments s.names s.values,
      "Shadow prices: [" ++
        ", ".intercalate (s.shadowPrices.map fun v => Text.quoted (fractionText v)) ++ "]"]
    else []
  let others := if s.multiple then
    "Note: Infinite many optimal solutions (alternate optimal)." ::
      (s.alternate.map fun values => "Alternate vertex: " ++ assignments s.names values).toList
    else []
  ["", "=== " ++ heading ++ " ===", "Status: " ++ s.status.word] ++ numbers ++
    ["Iterations: " ++ toString (s.iterations.length - 1)] ++ others

/-- The text of a result. -/
def summary (s : Solution Float) (heading : String) : String :=
  String.join ((s.summaryLines heading).map (· ++ "\n"))

end Solution

end TableauSimplex
