import TableauSimplex.Proofs.Optimum
import TableauSimplex.Proofs.Plane.Region
import TableauSimplex.Proofs.Tableau.ExtremePoint

/-!
# The optimum among the vertices

A run ends at a basic point, and a feasible basic point is an extreme point of the region
(`HasRowsOf.mem_extremePoints`). So the optimum that a solve reports is among the crossings that the
vertices are taken from, and as these are feasible, none of them is better
(`solve_optimal_vertices`).
-/

namespace TableauSimplex

variable {p : Problem Rat} {s : Settings Rat} {sol : Solution Rat} {x y : Rat}

/-- **A feasible basic point in the plane is an extreme point of the region.** -/
theorem Tableau.HasRowsOf.mem_extremePoints {t : Tableau Rat} (hp : p.Regular) (h : t.HasRowsOf p)
    (hv : ∀ j, 0 ≤ t.valueOf j) (hx : p.Feasible [x, y]) (hxy : p.decision t.valueOf = [x, y]) :
    (x, y) ∈ (Plane.region p).extremePoints Rat := by
  refine mem_extremePoints_iff_left.mpr ⟨hx, ?_⟩
  rintro ⟨x₁, y₁⟩ h₁ ⟨x₂, y₂⟩ h₂ ⟨a, b, ha, hb, hab, hsum⟩
  simp only [Prod.smul_mk, smul_eq_mul, Prod.mk_add_mk, Prod.mk.injEq] at hsum
  have hmean : Mean a b [x₁, y₁] [x₂, y₂] [x, y] := by
    refine ⟨hab, fun j => ?_⟩
    match j with
    | 0 => exact hsum.1.symm
    | 1 => exact hsum.2.symm
    | j + 2 => simp
  rw [← hxy] at hx hmean
  have heq := h.eq_of_mean hp hv hx h₁ h₂ ha hb.le hmean
  rw [hxy] at heq
  simpa using heq

namespace Plane

/-- **What a graph shows:** the vertices of the region. It takes two coefficients in the
objective. -/
theorem graph_spec {z : Rat} {found : Option (Graph Rat)} (hn : p.numVars = 2)
    (h : graph p [x, y] z s = .ok found) :
    p.objective.length = 2 ∧ ∃ g, found = some g ∧ feasibleVertices p s = .ok g.vertices := by
  rw [graph, if_neg (by simpa using hn)] at h
  obtain ⟨vertices, hvertices, h⟩ := exists_of_bind_eq_ok h
  simp only [pure_bind] at h
  obtain ⟨constraints, -, h⟩ := exists_of_bind_eq_ok h
  obtain ⟨line, hline, h⟩ := exists_of_bind_eq_ok h
  cases h
  refine ⟨?_, _, rfl, hvertices⟩
  rw [objectiveLine] at hline
  split at hline
  · rename_i hab
    rw [hab]
    rfl
  · cases hline

end Plane

/-- **The optimum of a solve with a graph is among the vertices** of the graph, or near one of them,
and no vertex is better than it. -/
theorem solve_optimal_vertices (hn : p.numVars = 2) (hp : Plane.Planar p)
    (hb : ∀ c ∈ p.constraints, 0 ≤ c.rhs) (hs : s.Exact) (hpar : s.parallel = 0)
    (h : solve p s true = .ok sol) (ho : sol.status = .optimal) :
    ∃ g x y, sol.graph = some g ∧ sol.values = [x, y] ∧
      (∃ q ∈ g.vertices, (q.x = x ∧ q.y = y) ∨
        (|x - q.x| < s.duplicate ∧ |y - q.y| < s.duplicate)) ∧
      ∀ q ∈ g.vertices, ¬p.sense.Better (p.objectiveAt [q.x, q.y]) sol.objectiveValue := by
  obtain ⟨first, last, stop, hrun, -, hgraph⟩ := exists_fromRun_of_solve h
  obtain ⟨x, y, hxy⟩ := List.length_eq_two.mp ((length_values_of_solve h).trans hn)
  rw [hxy] at hgraph
  obtain ⟨hobjective, g, hg, hvertices⟩ := Plane.graph_spec hn (hgraph rfl)
  obtain ⟨hcrossings, hnear⟩ := Plane.feasibleVertices_spec hp hvertices
  have hregular : p.Regular := ⟨hobjective.trans hn.symm, fun c hc => (hp c hc).trans hn.symm⟩
  have hopt := optimum_of_exact hregular hb hs h ho
  have hread := hrun.readOff hregular
  have hextreme : (x, y) ∈ (Plane.region p).extremePoints Rat :=
    (hread.sameEquations.hasRowsOf hregular hread.canonical).mem_extremePoints hregular
      (hread.valueOf_nonneg hs.ratio hb) (hxy ▸ hopt.feasible) (hread.values_eq ▸ hxy)
  refine ⟨g, x, y, hg, hxy, ?_, fun q hq => ?_⟩
  · obtain ⟨q, hq, heq | hclose⟩ :=
      hnear _ (Plane.mem_crossings_of_extreme hn hp hpar hs.feasibility hextreme)
    · exact ⟨q, hq, .inl (by simp [heq])⟩
    · refine ⟨q, hq, .inr ?_⟩
      rw [Plane.Point.near, Bool.and_eq_true, decide_eq_true_iff, decide_eq_true_iff,
        Scalar.abs_eq, Scalar.abs_eq] at hclose
      exact hclose
  · have hfeasible := (Plane.mem_crossings_iff.mp (hcrossings q hq)).2
    rw [hs.feasibility] at hfeasible
    exact hopt.best _ (Problem.feasible_iff.mpr ⟨hn.symm, hfeasible⟩)

/-- A square with its best corner at the origin. -/
def costlySquare : Problem Rat where
  sense := .minimize
  names := [.text "x", .text "y"]
  objective := [1, 1]
  constraints := [⟨[1, 0], .atMost, 1⟩, ⟨[0, 1], .atMost, 1⟩]

/-- With a large distance between vertices the origin is left out in favour of an earlier corner. -/
theorem solve_optimal_vertices_costlySquare :
    ∃ sol g, solve costlySquare { Settings.exact 1 with duplicate := 2 } true = .ok sol ∧
      sol.status = .optimal ∧ sol.graph = some g ∧
      ∀ q ∈ g.vertices, ¬costlySquare.objectiveAt [q.x, q.y] < sol.objectiveValue := by
  obtain ⟨sol, h, ho⟩ := exists_solution costlySquare { Settings.exact 1 with duplicate := 2 } true
    .optimal (by decide +kernel)
  obtain ⟨g, x, y, hg, -, -, hbest⟩ := solve_optimal_vertices (by decide +kernel)
    (by decide +kernel) (by decide +kernel) ⟨rfl, rfl, rfl⟩ rfl h ho
  exact ⟨sol, g, h, ho, hg, hbest⟩

end TableauSimplex
