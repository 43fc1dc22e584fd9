import TableauSimplex.Error

/-!
# Settings

The penalty of artificial variables, the tolerances of comparisons, the limits on steps and the
measures of a plot. Every one has a default.

* `Settings.check`: refuses settings that no run can use. The faults are looked for in a fixed
  order, so that of several the first is reported.
-/

namespace TableauSimplex

/-- The settings of a run. -/
structure Settings (α : Type) [Scalar α] where
  /-- The penalty on a unit of an artificial variable. -/
  penalty : α := 1e5
  /-- A column may enter when its reduced cost is below minus this. -/
  entering : α := 1e-9
  /-- An entry may be pivoted on when it is above this. -/
  ratio : α := 1e-9
  /-- How far a constraint may be missed. -/
  feasibility : α := 1e-5
  /-- A nonbasic reduced cost below this in size is a sign of other optima. -/
  reducedCost : α := 1e-5
  /-- How far from a whole number an integer variable may be. -/
  integrality : α := 1e-5
  /-- Two lines are parallel when their determinant is below this in size. -/
  parallel : α := 1e-10
  /-- Two vertices are the same when both coordinates differ by less than this. -/
  duplicate : α := 1e-3
  /-- The number of pivots after which a run that is not done gives up. -/
  maxIterations : Limit := .whole 100
  /-- The number of nodes after which the search for integer solutions stops. -/
  maxNodes : Limit := .whole 5000
  /-- The plotted square is this much larger than the points in it need. -/
  plotMargin : α := 1.5
  /-- The plotted square is made for points at least this far out. -/
  minPlotExtent : α := 10.0

namespace Settings

variable {α : Type} [Scalar α]

/-- The tolerances with their names, in the order in which they are checked. -/
def tolerances (s : Settings α) : List (String × α) :=
  [("entering_tol", s.entering), ("ratio_tol", s.ratio), ("feasibility_tol", s.feasibility),
    ("reduced_cost_tol", s.reducedCost), ("integrality_tol", s.integrality),
    ("parallel_tol", s.parallel), ("dedup_tol", s.duplicate)]

/-- Refuses a penalty that is not positive and finite and a negative tolerance, in this order. -/
def checkTolerances (s : Settings α) : Except Error Unit :=
  if !Scalar.isFinite s.penalty || s.penalty ≤ 0 then .error .badPenalty
  else
    match s.tolerances.find? fun t => t.2 < 0 with
    | some (name, _) => .error (.negativeTolerance name)
    | none => .ok ()

/-- Refuses a limit that leaves no room. -/
def checkLimit (limit : Limit) : Except Error Unit :=
  if limit.isPositive then .ok () else .error .badLimits

/-- Refuses a plot without extent. -/
def checkPlot (s : Settings α) : Except Error Unit :=
  if s.plotMargin ≤ 0 || s.minPlotExtent ≤ 0 then .error .badPlot else .ok ()

/-- Refuses bad tolerances, limits and measures of a plot, in this order. -/
def check (s : Settings α) : Except Error Unit := do
  s.checkTolerances
  checkLimit s.maxIterations
  checkLimit s.maxNodes
  s.checkPlot

end Settings

end TableauSimplex
