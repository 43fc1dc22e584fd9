import TableauSimplex.Problem.Document
import TableauSimplex.Settings

/-!
# Settings in documents

A document may give some of the settings by name; the others keep their defaults. All numbers but
the two limits are read first, then unknown names are refused, then the settings are checked. The
limits are looked at one by one when it is their turn.

* `limitOf`: the limit that a value stands for.
* `Settings.ofDocument`: the settings that a document gives.
-/

namespace TableauSimplex

/-- The limit that a value stands for. -/
def limitOf : Json.Value → Except Error Limit
  | .whole n => .ok (.whole n)
  | .decimal x => .ok (.ofDecimal x)
  | .bool b => .ok (.truth b)
  | _ => .error .wrongKind

namespace Settings

/-- The name of the limit on pivots. -/
def maxIterationsName : String := "max_iterations"

/-- The name of the limit on nodes. -/
def maxNodesName : String := "max_nodes"

/-- The settings with a number set by its name, unless no number has that name. -/
def setNumber? (s : Settings Float) (name : String) (x : Float) : Option (Settings Float) :=
  match name with
  | "big_m" => some { s with penalty := x }
  | "entering_tol" => some { s with entering := x }
  | "ratio_tol" => some { s with ratio := x }
  | "feasibility_tol" => some { s with feasibility := x }
  | "reduced_cost_tol" => some { s with reducedCost := x }
  | "integrality_tol" => some { s with integrality := x }
  | "parallel_tol" => some { s with parallel := x }
  | "dedup_tol" => some { s with duplicate := x }
  | "plot_margin" => some { s with plotMargin := x }
  | "min_plot_extent" => some { s with minPlotExtent := x }
  | _ => none

/-- The numbers among the fields of a document, with their names. -/
def numbersOf (fields : List (String × Json.Value)) : Except Error (List (String × Float)) :=
  (fields.filter fun f => f.1 != maxIterationsName && f.1 != maxNodesName).mapM fun (name, v) => do
    return (name, ← doubleOf v)

/-- The settings with numbers set by their names. -/
def setNumbers (s : Settings Float) (numbers : List (String × Float)) :
    Except Error (Settings Float) :=
  numbers.foldlM (fun s (name, x) =>
    match s.setNumber? name x with
    | some next => .ok next
    | none => .error .wrongKind) s

/-- A limit that a document may give, which has to leave room. -/
def readLimit (document : Json.Value) (name : String) (default : Limit) : Except Error Limit := do
  let limit ← match document.field? name with
    | some v => limitOf v
    | none => pure default
  checkLimit limit
  return limit

/-- The settings that a document gives. -/
def ofDocument (document : Json.Value) : Except Error (Settings Float) := do
  let s ← ({} : Settings Float).setNumbers (← numbersOf document.fields)
  s.checkTolerances
  let maxIterations ← readLimit document maxIterationsName s.maxIterations
  let maxNodes ← readLimit document maxNodesName s.maxNodes
  s.checkPlot
  return { s with maxIterations, maxNodes }

end Settings

end TableauSimplex
