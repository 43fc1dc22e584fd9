import TableauSimplex.Proofs.NextVertex
import TableauSimplex.Proofs.Plane.Corners
import TableauSimplex.Proofs.Solve

/-!
# Solves that do not fail

A tableau without columns has nothing to choose from, and a run that starts from one fails
(`Run.finish_of_no_columns`). From any other well-shaped tableau a run comes to an ending that a
solution is read off (`Run.isEnding_finish`), another optimum is looked for without failing
(`Run.exists_otherOptimum`), and the graph can be drawn (`Plane.exists_graph`). So the solve
of a program succeeds when the coefficients are regular and there is a variable or a constraint
(`exists_solve`), and under checked settings it fails only when there is neither (`solve_cases`).
-/

namespace TableauSimplex

variable {p : Problem Rat} {s : Settings Rat}

/-! ## Columns -/

/-- A program has a variable or a constraint, so that its tableaux have a column. -/
def Problem.HasColumn (p : Problem Rat) : Prop := 0 < p.numVars ∨ p.constraints ≠ []

theorem Tableau.numColumns_start_pos {penalty : Rat} (hp : p.Regular) (hc : p.HasColumn) :
    0 < (start p penalty).numColumns := by
  rcases hc with hvars | hconstraints
  · rw [numColumns_start hp]
    omega
  · have hrows : 0 < (start p penalty).rows.length := by
      rw [length_rows_start]
      exact List.length_pos_iff.mpr hconstraints
    exact Nat.zero_lt_of_lt ((wellShaped_start hp).basicCol_lt hrows)

theorem Tableau.numColumns_start_eq_zero {penalty : Rat} (hp : p.Regular) (hc : ¬p.HasColumn) :
    (start p penalty).numColumns = 0 := by
  obtain ⟨hvars, hconstraints⟩ := not_or.mp hc
  have hnil : p.signs = [] := by rw [Problem.signs, not_not.mp hconstraints, List.map_nil]
  rw [numColumns_start hp, Nat.eq_zero_of_not_pos hvars, zero_add, Problem.numAuxiliary, hnil]
  rfl

/-! ## Runs -/

namespace Run

variable {r : Run Rat}

/-- Without a column to choose from the first step fails. -/
theorem finish_of_no_columns (hc : r.tableau.numColumns = 0) :
    r.finish s = (r, some .noColumns) := by
  have hnone : r.tableau.enteringColumn s.entering = .error .noColumns := by
    rw [Tableau.enteringColumn, List.eq_nil_of_length_eq_zero hc]
    rfl
  have hstep : r.step s = .failed r .noColumns := by
    rw [step, hnone]
  rw [finish, loop, hstep]

/-- **A run comes to an ending** when there is a column to choose from. -/
theorem isEnding_finish (h : r.tableau.WellShaped) (hc : 0 < r.tableau.numColumns)
    (hr : 0 ≤ s.ratio) : IsEnding (r.finish s).2 := by
  obtain ⟨last, hreach, hstops⟩ := finish_stops s r
  obtain ⟨⟨reached, stop⟩, hfinish⟩ : ∃ e, r.finish s = e := ⟨_, rfl⟩
  rw [hfinish] at hstops ⊢
  cases hstops with
  | optimal _ => trivial
  | failed hstep =>
    rw [← hreach.numColumns h] at hc
    obtain ⟨-, ⟨name, rfl, -⟩ | hzero | hneg⟩ := step_failed (hreach.wellShaped h).labelled hstep
    · trivial
    · exact absurd hzero hc.ne'
    · exact absurd hr (not_le.mpr hneg)
  | limit _ => trivial

/-- Every ending has a status. -/
theorem exists_status {stop : Option Error} (h : IsEnding stop) :
    ∃ status, r.status s stop = .ok status := by
  cases stop with
  | none => exact ⟨_, rfl⟩
  | some cause =>
    cases cause with
    | unbounded column => exact ⟨_, rfl⟩
    | noConvergence limit => exact ⟨_, rfl⟩
    | _ => exact h.elim

/-- The look for another optimum does not fail. -/
theorem exists_otherOptimum (h : r.tableau.WellShaped) (hr : 0 ≤ s.ratio) (status : Status) :
    ∃ result, r.otherOptimum s status = .ok result := by
  cases status with
  | optimal =>
    rw [otherOptimum, h.otherOptimum_eq s.reducedCost hr]
    simp only [bind, Except.bind]
    split
    · exact ⟨_, rfl⟩
    · exact ⟨_, rfl⟩
  | _ => exact ⟨_, rfl⟩

end Run

/-! ## Graphs -/

namespace Plane

variable {values : List Rat} {z limit tol : Rat}

/-- **The graph of a program can be drawn** at a point with a value for every variable. -/
theorem exists_graph (hp : p.Regular) (hv : values.length = p.numVars) :
    ∃ g, graph p values z s = .ok g := by
  rw [graph]
  by_cases hn : p.numVars = 2
  · rw [if_neg (by simpa using hn)]
    rw [hn] at hv
    obtain ⟨x, y, rfl⟩ := List.length_eq_two.mp hv
    obtain ⟨a, b, hab⟩ := List.length_eq_two.mp (hp.objective.trans hn)
    have hplanar : Planar p := fun c hc => (hp.constraints c hc).trans hn
    have hline : ∀ limit, ∀ c ∈ p.constraints.zipIdx,
        ∃ line, constraintLine p limit s.parallel c.2 c.1 = .ok line := fun limit c hc =>
      exists_bind_eq_ok ⟨_, boundary_eq (hplanar _ (List.fst_mem_of_mem_zipIdx hc))⟩
        fun _ _ => ⟨_, rfl⟩
    have hobjective : ∀ limit, ∃ line, objectiveLine p z limit s.parallel = .ok line :=
      fun limit => by
        rw [objectiveLine, hab]
        exact ⟨_, rfl⟩
    refine exists_bind_eq_ok ⟨_, feasibleVertices_eq hplanar⟩ fun _ _ =>
      exists_bind_eq_ok ⟨_, rfl⟩ fun _ _ =>
      exists_bind_eq_ok (exists_mapM_eq_ok (hline _)) fun _ _ =>
      exists_bind_eq_ok (hobjective _) fun _ _ => ⟨_, rfl⟩
  · rw [if_pos (by simpa using hn)]
    exact ⟨none, rfl⟩

end Plane

/-! ## Solves -/

/-- A solve with its events succeeds when every coefficient is there and there is a column to choose
from. -/
theorem exists_solveLogged (hp : p.Regular) (hc : p.HasColumn) (hr : 0 ≤ s.ratio)
    (withGraph : Bool) : ∃ result, solveLogged p s withGraph = .ok result := by
  have hw : (Tableau.start p s.penalty).WellShaped := Tableau.wellShaped_start hp
  refine exists_bind_eq_ok ⟨_, Tableau.ofProblem_eq hp s.penalty⟩ fun t ht => ?_
  cases (Tableau.ofProblem_eq hp s.penalty).symm.trans ht
  refine exists_bind_eq_ok (Run.exists_start hw.labelled) fun first hfirst => ?_
  have htableau := Run.tableau_start hfirst
  rw [← htableau] at hw
  obtain ⟨⟨last, stop⟩, hfinish⟩ : ∃ e, first.finish s = e := ⟨_, rfl⟩
  have hend : Run.IsEnding (first.finish s).2 :=
    Run.isEnding_finish hw (htableau ▸ Tableau.numColumns_start_pos hp hc) hr
  rw [hfinish] at hend
  obtain ⟨hreach, -⟩ := Run.finish_spec hfinish hend
  have hvalues : last.tableau.values.length = p.numVars := by
    rw [Tableau.values, List.length_map, List.length_range, hreach.numDecision, htableau]
    rfl
  simp only [hfinish]
  refine exists_bind_eq_ok (Run.exists_status hend) fun status _ =>
    exists_bind_eq_ok (Run.exists_otherOptimum (hreach.wellShaped hw) hr status) fun _ _ => ?_
  cases withGraph with
  | false => exact ⟨_, rfl⟩
  | true => exact exists_bind_eq_ok (Plane.exists_graph hp hvalues) fun _ _ => ⟨_, rfl⟩

/-- **The solve of a program succeeds.** -/
theorem exists_solve (hp : p.Regular) (hc : p.HasColumn) (hr : 0 ≤ s.ratio) (withGraph : Bool) :
    ∃ sol, solve p s withGraph = .ok sol := by
  obtain ⟨⟨sol, events⟩, hresult⟩ := exists_solveLogged hp hc hr withGraph
  exact ⟨sol, by rw [solve, hresult]; rfl⟩

/-- The solve of a program without variables and constraints fails. -/
theorem solve_of_not_hasColumn (hp : p.Regular) (hc : ¬p.HasColumn) (withGraph : Bool) :
    solve p s withGraph = .error .noColumns := by
  have hw : (Tableau.start p s.penalty).WellShaped := Tableau.wellShaped_start hp
  obtain ⟨first, hfirst⟩ := Run.exists_start hw.labelled
  have hfinish : first.finish s = (first, some .noColumns) :=
    Run.finish_of_no_columns (Run.tableau_start hfirst ▸ Tableau.numColumns_start_eq_zero hp hc)
  rw [solve, solveLogged, Tableau.ofProblem_eq hp]
  simp only [bind, Except.bind, hfirst, hfinish]
  rfl

theorem Settings.ratio_nonneg_of_check (h : s.check = .ok ()) : 0 ≤ s.ratio := by
  obtain ⟨u, htolerances, -⟩ := exists_of_bind_eq_ok h
  unfold checkTolerances at htolerances
  split at htolerances
  · cases htolerances
  · split at htolerances
    · cases htolerances
    · rename_i hnone
      have hratio := List.find?_eq_none.mp hnone ("ratio_tol", s.ratio) (by simp [tolerances])
      simpa using hratio

/-- **What a solve comes to** under settings that pass their check: a solution with a value for every
variable and a price for every constraint, unless there is neither variable nor constraint. -/
theorem solve_cases (hp : p.Regular) (hs : s.check = .ok ()) (withGraph : Bool) :
    (p.HasColumn ∧ ∃ sol, solve p s withGraph = .ok sol ∧ sol.values.length = p.numVars ∧
      sol.shadowPrices.length = p.constraints.length) ∨
    (¬p.HasColumn ∧ solve p s withGraph = .error .noColumns) := by
  by_cases hc : p.HasColumn
  · obtain ⟨sol, h⟩ := exists_solve hp hc (Settings.ratio_nonneg_of_check hs) withGraph
    exact .inl ⟨hc, sol, h, length_values_of_solve h, length_shadowPrices_of_solve h⟩
  · exact .inr ⟨hc, solve_of_not_hasColumn hp hc withGraph⟩

end TableauSimplex
