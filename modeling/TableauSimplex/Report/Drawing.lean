import TableauSimplex.Number.Approximation
import TableauSimplex.Plane.Graph

/-!
# Drawings

A graph is drawn by a list of instructions to a plotting device: the filled region, the constraint
lines, the objective line, the vertices, the optimum and its label, and the frame of the plot.

* `Instruction`: one instruction, with positional and named arguments.
* `Plane.Graph.drawing`: the instructions for a graph.
-/

namespace TableauSimplex

open Json (Value)

/-- An instruction to a plotting device. -/
structure Instruction where
  action : String
  arguments : List Value
  options : List (String × Value)

namespace Plane

/-- The coordinates of points as two lists. -/
def coordinates (points : List (Point Float)) : List Value :=
  [.list (points.map fun p => .decimal p.x), .list (points.map fun p => .decimal p.y)]

/-- A point as a pair of coordinates with three significant digits. -/
def Point.brief (p : Point Float) : String :=
  "(" ++ significantText 3 p.x ++ ", " ++ significantText 3 p.y ++ ")"

namespace Graph

/-- The filled region. It takes three vertices to have an inside. -/
def region (g : Graph Float) : List Instruction :=
  if g.vertices.length < 3 then []
  else [⟨"ax.fill", coordinates g.vertices,
    [("color", .text "#e8f7ff"), ("alpha", .decimal 0.8), ("edgecolor", .text "#1f5f8b"),
      ("label", .text "feasible region")]⟩]

/-- A constraint line, if it has two ends. -/
def lineInstruction (l : PlotLine Float) : List Instruction :=
  if l.points.length != 2 then []
  else [⟨"ax.plot", coordinates l.points,
    [("color", .text l.color), ("alpha", .decimal 0.8),
      ("label", .text (l.name ++ ": " ++ l.equation.text))]⟩]

/-- The objective line, if it has two ends. -/
def objectiveInstruction (l : PlotLine Float) : List Instruction :=
  if l.points.length != 2 then []
  else [⟨"ax.plot", coordinates l.points ++ [.text "k--"],
    [("label", .text ("iso-profit: " ++ l.equation.text))]⟩]

/-- The vertices, if there are any. -/
def vertexInstruction (g : Graph Float) : List Instruction :=
  if g.vertices.isEmpty then []
  else [⟨"ax.scatter", coordinates g.vertices,
    [("s", .whole 25), ("color", .text "#444444"), ("label", .text "BFS")]⟩]

/-- A marked point. -/
def marker (p : Point Float) (style label : String) : Instruction :=
  ⟨"ax.plot", coordinates [p] ++ [.text style], [("label", .text (label ++ " " ++ p.brief))]⟩

/-- The optimum with its value, and the integer optimum. -/
def optima (g : Graph Float) : List Instruction :=
  let p := g.optimum
  let value := (p.value.map fractionText).getD "None"
  [marker p "ro" "optimal",
    ⟨"ax.annotate", [.text ("Z* = " ++ value), .list [.decimal p.x, .decimal p.y]],
      [("textcoords", .text "offset points"), ("xytext", .list [.whole 8, .whole 8])]⟩] ++
    (g.integerOptimum.map fun q => marker q "gs" "integer optimal").toList

/-- The axes, the title, the legend and the grid, and the call to show it all. -/
def frame (xName yName : Name) : List Instruction :=
  [⟨"ax.set_xlim", [], [("left", .whole 0)]⟩,
    ⟨"ax.set_ylim", [], [("bottom", .whole 0)]⟩,
    ⟨"ax.set_xlabel", [xName], []⟩,
    ⟨"ax.set_ylabel", [yName], []⟩,
    ⟨"ax.set_title", [.text "Constraints, Feasible Region, Iso-profit"], []⟩,
    ⟨"ax.legend", [], [("loc", .text "best"), ("fontsize", .whole 8)]⟩,
    ⟨"ax.grid", [.bool true], [("alpha", .decimal 0.3)]⟩,
    ⟨"fig.tight_layout", [], []⟩,
    ⟨"plt.show", [], []⟩]

/-- The instructions for a graph with the given names on its axes. -/
def drawing (g : Graph Float) (names : List Name) : Except Error (List Instruction) :=
  match names with
  | xName :: yName :: _ => .ok (
    [⟨"plt.subplots", [], [("figsize", .list [.whole 6, .whole 6])]⟩] ++ g.region ++
      g.constraints.flatMap lineInstruction ++ objectiveInstruction g.objectiveLine ++
      g.vertexInstruction ++ g.optima ++ frame xName yName)
  | _ => .error .outOfRange

end Graph

end Plane

end TableauSimplex
