import TableauSimplex.Dual
import TableauSimplex.Solution.Basic

/-!
# Reports as documents

Solutions, graphs and duals as JSON values. How a number is written is left to the caller, apart for
the numbers of a graph, which stand for positions on a plot.

* `Iteration.document`, `Solution.document`, `Dual.document`, `Plane.Graph.document`.
-/

namespace TableauSimplex

open Json (Value)

/-- A list of numbers. -/
def numberList (write : Float → Value) (xs : List Float) : Value := .list (xs.map write)

/-- A value that may be missing. -/
def optionalValue {β : Type} (write : β → Value) : Option β → Value
  | some x => write x
  | none => .null

/-- A count or a position. -/
def countValue (n : Int) : Value := .whole n

namespace Plane

/-- A point. -/
def Point.document (write : Float → Value) (p : Point Float) : Value :=
  .object [("x", write p.x), ("y", write p.y), ("value", optionalValue write p.value)]

/-- A line to draw. -/
def PlotLine.document (write : Float → Value) (l : PlotLine Float) : Value :=
  .object [("name", .text l.name), ("points", .list (l.points.map (·.document write))),
    ("color", .text l.color), ("equation", .text l.equation.text)]

/-- A graph. -/
def Graph.document (write : Float → Value) (g : Graph Float) : Value :=
  .object [("feasible_region", .list (g.vertices.map (·.document write))),
    ("constraints", .list (g.constraints.map (·.document write))),
    ("objective_line", g.objectiveLine.document write),
    ("optimal_point", g.optimum.document write),
    ("integer_optimal_point", optionalValue (·.document write) g.integerOptimum)]

end Plane

/-- An iteration. -/
def Iteration.document (write : Float → Value) (i : Iteration Float) : Value :=
  .object [("id", countValue i.number), ("headers", .list i.headers),
    ("z_row", numberList write i.objective.entries),
    ("rows", .list (i.rows.map fun r => numberList write r.entries)), ("base", .list i.basis),
    ("entering_var", optionalValue id i.entering), ("leaving_var", optionalValue id i.leaving),
    ("pivot_row", optionalValue countValue i.pivotRow),
    ("pivot_col", optionalValue countValue i.pivotCol)]

/-- A solution. The numbers of its graph are written in a way of their own. -/
def Solution.document (write onPlot : Float → Value) (s : Solution Float) : Value :=
  .object [("status", .text s.status.word), ("z_value", write s.objectiveValue),
    ("variables", .list (List.zipWith
      (fun name value => .object [("name", name), ("value", write value)]) s.names s.values)),
    ("shadow_prices", numberList write s.shadowPrices),
    ("iterations", .list (s.iterations.map (·.document write))),
    ("multiple_solutions", .bool s.multiple),
    ("alternative_solutions", optionalValue (numberList write) s.alternate),
    ("graph_data", optionalValue (·.document onPlot) s.graph)]

/-- A dual program. -/
def Dual.document (write : Float → Value) (d : Dual Float) : Value :=
  .object [("type", .text d.sense.word),
    ("variables", .list (d.unknowns.map fun (name, r) =>
      .object [("name", name), ("sign", .text r.word)])),
    ("constraints", .list (d.constraints.map fun c =>
      .object [("coeffs", numberList write c.coefficients), ("sign", .text c.sign.symbol),
        ("rhs", write c.rhs)])),
    ("objective", numberList write d.objective)]

end TableauSimplex
