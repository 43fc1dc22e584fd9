import TableauSimplex.Proofs.Optimum
import TableauSimplex.Proofs.Prices
import TableauSimplex.Proofs.WeakDuality

/-!
# What prices say about other right sides

The dual of a program has the same constraints whatever the right sides are; they only make up its
objective (`Problem.dual_withRhs`). The prices of an optimum therefore bound the program with other
right sides too, by the dual objective there, and the difference to the objective value is each
price times the change of its right side (`Problem.dot_sub_dot`).

* `solve_sensitivity`: between two reported optima, however different their last bases are.
-/

namespace TableauSimplex

namespace Problem

/-- The program with other right sides, one for every constraint. -/
def withRhs (p : Problem Rat) (rhs : List Rat) : Problem Rat :=
  { p with constraints := List.zipWith (fun c b => { c with rhs := b }) p.constraints rhs }

variable {p : Problem Rat} {rhs : List Rat}

@[simp] theorem sense_withRhs : (p.withRhs rhs).sense = p.sense := rfl

theorem getElem_withRhs {i : Nat} (hi : i < (p.withRhs rhs).constraints.length)
    (hc : i < p.constraints.length) (hb : i < rhs.length) :
    (p.withRhs rhs).constraints[i] = { p.constraints[i] with rhs := rhs[i] } :=
  List.getElem_zipWith

theorem Regular.withRhs (hp : p.Regular) : (p.withRhs rhs).Regular where
  objective := hp.objective
  constraints c hc := by
    obtain ⟨i, hi, rfl⟩ := List.getElem_of_mem hc
    have hi' : i < p.constraints.length ∧ i < rhs.length := by
      simpa [Problem.withRhs, Nat.lt_min] using hi
    rw [getElem_withRhs hi hi'.1 hi'.2]
    have hc := hp.constraints _ (List.getElem_mem hi'.1)
    exact hc

section

variable (hlen : rhs.length = p.constraints.length)

include hlen

theorem length_withRhs : (p.withRhs rhs).constraints.length = p.constraints.length := by
  simp [withRhs, hlen]

theorem rhs_withRhs : (p.withRhs rhs).constraints.map (·.rhs) = rhs := by
  refine List.ext_getElem (by simp [length_withRhs hlen, hlen]) fun i hi hi' => ?_
  rw [List.getElem_map, getElem_withRhs (by simpa using hi) (hlen ▸ hi') hi']

theorem column_withRhs (j : Nat) : (p.withRhs rhs).column j = p.column j := by
  refine List.ext_getElem (by simp [column, length_withRhs hlen]) fun i hi hi' => ?_
  have hc : i < p.constraints.length := by simpa [column] using hi'
  simp only [column, List.getElem_map]
  rw [getElem_withRhs (by simpa [column] using hi) hc (hlen ▸ hc)]

/-- **Right sides are the objective of the dual** and stand nowhere else in it. -/
theorem dual_withRhs : (p.withRhs rhs).dual = { p.dual with objective := rhs } := by
  have hunknowns : (p.withRhs rhs).dual.unknowns = p.dual.unknowns := by
    refine List.ext_getElem (by simp [dual, length_withRhs hlen]) fun i hi hi' => ?_
    have hc : i < p.constraints.length := by simpa [dual] using hi'
    simp only [dual, List.getElem_mapIdx, sense_withRhs]
    rw [getElem_withRhs (by simpa [dual] using hi) hc (hlen ▸ hc)]
  have hconstraints : (p.withRhs rhs).dual.constraints = p.dual.constraints :=
    List.map_congr_left fun j _ => by rw [column_withRhs hlen]; rfl
  rw [Dual.mk.injEq]
  exact ⟨rfl, hunknowns, hconstraints, rhs_withRhs hlen⟩

/-- By how much the dual objective changes with the right sides. -/
theorem dot_sub_dot (prices : List Rat) :
    Scalar.dot rhs prices - Scalar.dot p.dual.objective prices =
      ∑ i ∈ Finset.range p.constraints.length,
        prices.getD i 0 * (rhs.getD i 0 - (p.constraintAt i).rhs) := by
  have hdual : p.dual.objective.length = p.constraints.length := List.length_map _
  rw [Scalar.dot_eq, Scalar.dot_eq, hlen, hdual, ← Finset.sum_sub_distrib]
  refine Finset.sum_congr rfl fun i _ => ?_
  rw [dual, p.getD_rhs]
  ring

end

end Problem

variable {p : Problem Rat} {s s' : Settings Rat} {withGraph withGraph' : Bool}
  {sol sol' : Solution Rat} {rhs : List Rat}

/-- **Prices bound the optimum for other right sides.** When a program and the program with other
nonnegative right sides are both reported as optimal, the objective value of the second is no better
than that of the first and each price of the first times the change of its right side. The two may
be solved with different penalties, and the right sides of the first may have any sign. -/
theorem solve_sensitivity (hp : p.Regular) (hlen : rhs.length = p.constraints.length)
    (hb : ∀ b ∈ rhs, 0 ≤ b) (he : s.entering = 0) (hs : s'.Exact)
    (h : solve p s withGraph = .ok sol) (ho : sol.status = .optimal)
    (h' : solve (p.withRhs rhs) s' withGraph' = .ok sol') (ho' : sol'.status = .optimal) :
    (p.sense = .maximize → sol'.objectiveValue ≤ sol.objectiveValue +
      ∑ i ∈ Finset.range p.constraints.length,
        sol.shadowPrices.getD i 0 * (rhs.getD i 0 - (p.constraintAt i).rhs)) ∧
    (p.sense = .minimize → sol.objectiveValue +
      ∑ i ∈ Finset.range p.constraints.length,
        sol.shadowPrices.getD i 0 * (rhs.getD i 0 - (p.constraintAt i).rhs) ≤
      sol'.objectiveValue) := by
  obtain ⟨t, hread⟩ := solve_spec hp h
  have hleft := hread.leftWith
  rw [ho] at hleft
  have hadmits : (p.withRhs rhs).dual.Admits sol.shadowPrices 0 := by
    have := hread.dual_admits hp hleft.1
    rw [Problem.dual_withRhs hlen]
    exact ⟨he ▸ this.constraints, he ▸ this.restrictions⟩
  have hrhs : ∀ c ∈ (p.withRhs rhs).constraints, 0 ≤ c.rhs := fun c hc =>
    hb _ (Problem.rhs_withRhs hlen ▸ List.mem_map_of_mem hc)
  have hbest := optimum_of_exact hp.withRhs hrhs hs h' ho'
  have hle := Problem.orient_objectiveAt_le hp.withRhs hbest.feasible hadmits
  rw [← hbest.objectiveValue, Problem.dual_withRhs hlen, Problem.sense_withRhs] at hle
  have hchange := Problem.dot_sub_dot hlen sol.shadowPrices
  rw [hread.dot_shadowPrices hp, sub_eq_iff_eq_add'] at hchange
  rw [← hchange]
  constructor
  · intro hsense
    simpa [hsense, Sense.orient] using hle
  · intro hsense
    simpa [hsense, Sense.orient] using hle

/-- Right sides with another basis at the optimum and another penalty: the value grows by no more
than the price of the first row says. -/
theorem solve_sensitivity_mixedRows :
    ∃ sol sol', solve mixedRows (.exact 1) false = .ok sol ∧ sol.status = .optimal ∧
      solve (mixedRows.withRhs [9, 4, 6]) (.exact 100) false = .ok sol' ∧ sol'.status = .optimal ∧
      sol'.objectiveValue ≤ sol.objectiveValue +
        ∑ i ∈ Finset.range 3,
          sol.shadowPrices.getD i 0 * (([9, 4, 6] : List Rat).getD i 0 -
            (mixedRows.constraintAt i).rhs) := by
  obtain ⟨sol, h, ho⟩ := exists_solution mixedRows (.exact 1) false .optimal (by decide +kernel)
  obtain ⟨sol', h', ho'⟩ := exists_solution (mixedRows.withRhs [9, 4, 6]) (.exact 100) false
    .optimal (by decide +kernel)
  obtain ⟨hle, -⟩ := solve_sensitivity (by decide +kernel) rfl (by decide +kernel) rfl
    ⟨rfl, rfl, rfl⟩ h ho h' ho'
  exact ⟨sol, sol', h, ho, h', ho', hle rfl⟩

end TableauSimplex
