import TableauSimplex.Proofs.Solve

/-!
# Reported optima

With nonnegative right sides and exact pivoting rules, a solution that is reported as optimal is
feasible up to the tolerance and no feasible point is better, whatever the penalty
(`solve_optimal`). It need not be feasible exactly: artificial variables within the tolerance are
overlooked, and then the objective value reported is not that of the point.
-/

namespace TableauSimplex

variable {p : Problem Rat} {s : Settings Rat} {withGraph : Bool} {sol : Solution Rat}
  {t : Tableau Rat}

namespace Tableau.SameEquations

variable {penalty : Rat} (hp : p.Regular) (h : SameEquations (start p penalty) t) (ht : t.Canonical)
  (hv : ∀ j, 0 ≤ t.valueOf j)

include hp h ht hv

/-- Where no artificial variable is above a tolerance, no constraint falls short by more. -/
theorem isFeasible {tol : Rat} (hf : 0 ≤ tol) (ha : t.hasPositiveArtificial tol = false) :
    p.isFeasible (p.decision t.valueOf) tol = true := by
  obtain ⟨hr, hshort⟩ := Problem.relaxed_of_solves hp hv (h.solves_start hp ht)
  have hle : ∀ i < p.constraints.length,
      valueAt t.valueOf (p.auxiliaryAt i).artificial ≤ tol := fun i hi =>
    h.artificial_le ht hf ha hi
  rw [Problem.isFeasible_iff]
  constructor
  · intro a ham
    exact le_trans (neg_nonpos.mpr hf) (hr.nonneg a ham)
  · rw [Problem.forall_mem_constraints]
    intro i hi
    exact Constraint.isSatisfied_of_relaxed hf (Problem.forall_mem_constraints.mp hr.relaxed i hi)
      (le_trans (hshort i hi) (hle i hi))

variable (ha : t.hasPositiveArtificial 0 = false)

include ha

/-- Where no artificial variable is positive, the point is feasible. -/
theorem feasible : p.Feasible (p.decision t.valueOf) :=
  Problem.feasible_iff.mpr ⟨Problem.length_decision, h.isFeasible hp ht hv (le_refl 0) ha⟩

/-- Where no artificial variable is positive, the objective row holds the gain of the point. -/
theorem gain_eq_rhs : p.gain (p.decision t.valueOf) = t.objective.rhs := by
  have h0 : p.artificialSum t.valueOf = 0 := Finset.sum_eq_zero fun i hi => le_antisymm
    (h.artificial_le ht (le_refl 0) ha (Finset.mem_range.mp hi)) (Problem.valueAt_nonneg hv _)
  rw [h.gain_decision hp ht, h0, mul_zero, add_zero]

end Tableau.SameEquations

namespace Solution.ReadOff

variable (h : sol.ReadOff p s t)

include h

theorem isFeasible (hp : p.Regular) (hv : ∀ j, 0 ≤ t.valueOf j) {tol : Rat} (hf : 0 ≤ tol)
    (ha : t.hasPositiveArtificial tol = false) : p.isFeasible sol.values tol = true := by
  rw [h.values_eq]
  exact h.sameEquations.isFeasible hp h.canonical hv hf ha

theorem feasible (hp : p.Regular) (hv : ∀ j, 0 ≤ t.valueOf j)
    (ha : t.hasPositiveArtificial 0 = false) : p.Feasible sol.values := by
  rw [h.values_eq]
  exact h.sameEquations.feasible hp h.canonical hv ha

/-- **Where no point is feasible** an artificial variable is left. -/
theorem hasPositiveArtificial (hp : p.Regular) (hv : ∀ j, 0 ≤ t.valueOf j)
    (hx : ∀ x, ¬p.Feasible x) : t.hasPositiveArtificial 0 = true :=
  Bool.of_not_eq_false fun ha => hx _ (h.feasible hp hv ha)

/-- Where no artificial variable is positive, the objective value is that of the point. -/
theorem objectiveValue_eq_objectiveAt (hp : p.Regular) (hv : ∀ j, 0 ≤ t.valueOf j)
    (ha : t.hasPositiveArtificial 0 = false) : sol.objectiveValue = p.objectiveAt sol.values := by
  rw [h.objectiveValue_eq, h.values_eq, ← h.sameEquations.gain_eq_rhs hp h.canonical hv ha,
    Problem.gain, Sense.orient_orient]

end Solution.ReadOff

/-- A solution is an optimum: a feasible point that no other one is better than. -/
structure Problem.Optimum (p : Problem Rat) (sol : Solution Rat) : Prop where
  feasible : p.Feasible sol.values
  objectiveValue : sol.objectiveValue = p.objectiveAt sol.values
  best : ∀ x, p.Feasible x → ¬p.sense.Better (p.objectiveAt x) sol.objectiveValue

theorem Problem.Optimum.orient_le {x : List Rat} (h : p.Optimum sol) (hx : p.Feasible x) :
    p.sense.orient (p.objectiveAt x) ≤ p.sense.orient sol.objectiveValue :=
  (p.sense.not_better_iff _ _).mp (h.best x hx)

/-- **A reported optimum is feasible** when every positive entry takes part in the ratio test and no
artificial variable is overlooked. -/
theorem feasible_of_optimal (hp : p.Regular) (hb : ∀ c ∈ p.constraints, 0 ≤ c.rhs)
    (hr : s.ratio = 0) (hf : s.feasibility = 0) (h : solve p s withGraph = .ok sol)
    (ho : sol.status = .optimal) : p.Feasible sol.values := by
  obtain ⟨t, hread⟩ := solve_spec hp h
  obtain ⟨-, ha⟩ := hread.leftWith_optimal ho
  rw [hf] at ha
  exact hread.feasible hp (hread.valueOf_nonneg hr hb) ha

/-- **Without tolerances a reported optimum is one.** -/
theorem optimum_of_exact (hp : p.Regular) (hb : ∀ c ∈ p.constraints, 0 ≤ c.rhs) (hs : s.Exact)
    (h : solve p s withGraph = .ok sol) (ho : sol.status = .optimal) : p.Optimum sol := by
  obtain ⟨t, hread⟩ := solve_spec hp h
  obtain ⟨hnone, ha⟩ := hread.leftWith_optimal ho
  have hv := hread.valueOf_nonneg hs.ratio hb
  rw [hs.entering] at hnone
  rw [hs.feasibility] at ha
  refine ⟨hread.feasible hp hv ha, hread.objectiveValue_eq_objectiveAt hp hv ha, fun x hx => ?_⟩
  rw [Sense.not_better_iff, hread.objectiveValue_eq, Sense.orient_orient]
  exact hread.gain_le hp (Tableau.nonneg_of_enteringColumn hnone) hx

/-- **A reported optimum** is feasible up to the tolerance, and no feasible point is better than the
objective value reported. Without a tolerance it is feasible and has that value itself. The size of
the penalty does not matter, and neither does the limit on pivots. -/
theorem solve_optimal (hp : p.Regular) (hb : ∀ c ∈ p.constraints, 0 ≤ c.rhs)
    (hf : 0 ≤ s.feasibility) (he : s.entering = 0) (hr : s.ratio = 0)
    (h : solve p s withGraph = .ok sol) (ho : sol.status = .optimal) :
    p.isFeasible sol.values s.feasibility = true ∧
      (∀ x, p.Feasible x → ¬p.sense.Better (p.objectiveAt x) sol.objectiveValue) ∧
      (s.feasibility = 0 →
        p.Feasible sol.values ∧ sol.objectiveValue = p.objectiveAt sol.values) := by
  obtain ⟨t, hread⟩ := solve_spec hp h
  have hleft := hread.leftWith
  rw [ho] at hleft
  obtain ⟨hnone, ha⟩ := hleft
  rw [he] at hnone
  have hv := hread.valueOf_nonneg hr hb
  have hfeasible := hread.isFeasible hp hv hf ha
  refine ⟨hfeasible, fun x hx hbetter => ?_, fun h0 => ?_⟩
  · have hle := hread.gain_le hp (Tableau.nonneg_of_enteringColumn hnone) hx
    rw [Sense.better_iff, hread.objectiveValue_eq, Sense.orient_orient] at hbetter
    exact absurd hle (not_le.mpr hbetter)
  · rw [h0] at ha hfeasible
    have hlen : sol.values.length = p.numVars := by
      rw [hread.values_eq, Problem.length_decision]
    exact ⟨Problem.feasible_iff.mpr ⟨hlen, hfeasible⟩,
      hread.objectiveValue_eq_objectiveAt hp hv ha⟩

/-- Two variables and a row of each sign. -/
def mixedRows : Problem Rat where
  sense := .maximize
  names := [.text "x", .text "y"]
  objective := [3, 2]
  constraints := [⟨[1, 1], .atMost, 4⟩, ⟨[1, 0], .atLeast, 1⟩, ⟨[1, 3], .equal, 6⟩]

/-- The optimum of a program with a row of each sign, with a penalty of one. -/
theorem solve_optimal_mixedRows :
    ∃ sol, solve mixedRows (.exact 1) false = .ok sol ∧ sol.status = .optimal ∧
      mixedRows.Feasible sol.values ∧
      (∀ x, mixedRows.Feasible x → mixedRows.objectiveAt x ≤ sol.objectiveValue) := by
  obtain ⟨sol, h, ho⟩ := exists_solution mixedRows (.exact 1) false .optimal (by decide +kernel)
  obtain ⟨-, hbest, hexact⟩ := solve_optimal (by decide +kernel) (by decide +kernel)
    (le_refl _) rfl rfl h ho
  exact ⟨sol, h, ho, (hexact rfl).1, fun x hx => not_lt.mp (hbest x hx)⟩

end TableauSimplex
