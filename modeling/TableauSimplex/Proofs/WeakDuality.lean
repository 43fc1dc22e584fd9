import TableauSimplex.Proofs.Dual

/-!
# Weak duality

Prices that satisfy the dual of a program bound its objective: at every feasible point it is no
better than the dual objective at the prices (`Problem.orient_objectiveAt_le`). Both senses are
turned so that greater is better. Each constraint of the dual then covers the cost of one variable
(`Problem.cost_le_of_admits`), and the restriction of each unknown goes with the sign of its own
constraint (`Constraint.price_mul_lhs_le`).
-/

namespace TableauSimplex

/-- **A constraint that holds bounds its left side at its price.** The sign of the price is the one
that the sense and the sign of the constraint allow. -/
theorem Constraint.price_mul_lhs_le {c : Constraint Rat} {x : List Rat} {d : Sense} {y : Rat}
    (hx : c.Holds x) (hy : (Restriction.ofSign d c.sign).Admits 0 y) :
    d.orient y * c.lhs x ≤ d.orient y * c.rhs := by
  unfold Holds at hx
  cases hs : c.sign with
  | atMost =>
    simp only [hs] at hx hy
    have hprice : 0 ≤ d.orient y := by
      cases d <;> simpa [Restriction.ofSign, Restriction.Admits, Sense.orient] using hy
    exact mul_le_mul_of_nonneg_left hx hprice
  | atLeast =>
    simp only [hs] at hx hy
    have hprice : d.orient y ≤ 0 := by
      cases d <;> simpa [Restriction.ofSign, Restriction.Admits, Sense.orient] using hy
    exact mul_le_mul_of_nonpos_left hx hprice
  | equal =>
    simp only [hs] at hx
    rw [hx]

namespace Problem

variable {p : Problem Rat} {x y : List Rat}

section

variable (hy : p.dual.Admits y 0)

include hy

/-- **A constraint of the dual covers the cost of its variable.** -/
theorem cost_le_of_admits {j : Nat} (hj : j < p.numVars) :
    p.sense.orient (p.objective.getD j 0) ≤
      ∑ i ∈ Finset.range p.constraints.length, (p.column j).getD i 0 *
        p.sense.orient (y.getD i 0) := by
  have hmem : ⟨p.column j, Dual.constraintSign p.sense, p.objective.getD j 0⟩ ∈
      p.dual.constraints := List.mem_map.mpr ⟨j, List.mem_range.mpr hj, rfl⟩
  have hholds := Constraint.isSatisfied_zero_iff.mp (hy.constraints _ hmem)
  have hlen : (p.column j).length = p.constraints.length := List.length_map _
  rw [Sense.sum_orient, ← hlen, ← Scalar.dot_eq]
  unfold Constraint.Holds at hholds
  cases hs : p.sense <;> simp only [hs, Dual.constraintSign] at hholds
  · exact hholds
  · exact neg_le_neg hholds

theorem restriction_of_admits {i : Nat} (hi : i < p.constraints.length) :
    (Restriction.ofSign p.sense (p.constraintAt i).sign).Admits 0 (y.getD i 0) := by
  obtain ⟨hlen, hall⟩ := List.forall₂_iff_get.mp hy.restrictions
  have hi' : i < y.length := by simpa [dual, ← hlen] using hi
  have h := hall i (by simpa [dual] using hi) hi'
  rw [constraintAt_of_lt hi, List.getD_eq_getElem _ _ hi']
  simpa [dual] using h

end

/-- **Weak duality.** At a feasible point the objective is no better than the dual objective at
prices that satisfy the dual. -/
theorem orient_objectiveAt_le (hp : p.Regular) (hx : p.Feasible x) (hy : p.dual.Admits y 0) :
    p.sense.orient (p.objectiveAt x) ≤ p.sense.orient (Scalar.dot p.dual.objective y) := by
  have hlen : p.dual.objective.length = p.constraints.length := List.length_map _
  have hlhs : ∀ i < p.constraints.length, (p.constraintAt i).lhs x =
      ∑ j ∈ Finset.range p.numVars, (p.column j).getD i 0 * x.getD j 0 := fun i hi => by
    have hc : (p.constraintAt i).coefficients.length = p.numVars := by
      rw [constraintAt_of_lt hi]
      exact hp.constraints _ (List.getElem_mem hi)
    rw [Constraint.lhs, Scalar.dot_eq, hc]
    refine Finset.sum_congr rfl fun j _ => ?_
    rw [getD_column hi]
  calc p.sense.orient (p.objectiveAt x)
      = ∑ j ∈ Finset.range p.numVars, p.sense.orient (p.objective.getD j 0) * x.getD j 0 := by
        rw [objectiveAt, Scalar.dot_eq, hp.objective]
        cases p.sense <;> simp [Sense.orient]
    _ ≤ ∑ j ∈ Finset.range p.numVars, (∑ i ∈ Finset.range p.constraints.length,
          (p.column j).getD i 0 * p.sense.orient (y.getD i 0)) * x.getD j 0 := by
        refine Finset.sum_le_sum fun j hj => ?_
        exact mul_le_mul_of_nonneg_right (cost_le_of_admits hy (Finset.mem_range.mp hj))
          (getD_nonneg hx.nonneg j)
    _ = ∑ i ∈ Finset.range p.constraints.length,
          p.sense.orient (y.getD i 0) * (p.constraintAt i).lhs x := by
        simp only [Finset.sum_mul]
        rw [Finset.sum_comm]
        refine Finset.sum_congr rfl fun i hi => ?_
        rw [hlhs i (Finset.mem_range.mp hi), Finset.mul_sum]
        exact Finset.sum_congr rfl fun j _ => by ring
    _ ≤ ∑ i ∈ Finset.range p.constraints.length,
          p.sense.orient (y.getD i 0) * (p.constraintAt i).rhs := by
        refine Finset.sum_le_sum fun i hi => ?_
        have hi := Finset.mem_range.mp hi
        exact Constraint.price_mul_lhs_le (forall_mem_constraints.mp hx.holds i hi)
          (restriction_of_admits hy hi)
    _ = p.sense.orient (Scalar.dot p.dual.objective y) := by
        rw [Scalar.dot_eq, hlen, ← Sense.sum_orient]
        refine Finset.sum_congr rfl fun i _ => ?_
        rw [dual, p.getD_rhs, mul_comm]

end Problem

/-- **Weak duality.** A regular program has a dual, and prices that satisfy its constraints and its
restrictions bound the objective of the program at every feasible point: from above when it is
maximized and from below when it is minimized. -/
theorem weak_duality {p : Problem Rat} (hp : p.Regular) :
    ∃ d, Dual.ofProblem p = .ok d ∧ ∀ x y, p.Feasible x → d.Admits y 0 →
      match p.sense with
      | .maximize => p.objectiveAt x ≤ Scalar.dot d.objective y
      | .minimize => Scalar.dot d.objective y ≤ p.objectiveAt x := by
  refine ⟨p.dual, Dual.ofProblem_eq hp, fun x y hx hy => ?_⟩
  have hle := Problem.orient_objectiveAt_le hp hx hy
  cases hs : p.sense with
  | maximize =>
    rw [hs] at hle
    exact hle
  | minimize =>
    rw [hs] at hle
    exact neg_le_neg_iff.mp hle

/-- A minimized program with a constraint of each sign, so that its prices have one restriction of
each kind. -/
def eachRestriction : Problem Rat where
  sense := .minimize
  names := [.text "x", .text "y"]
  objective := [2, 3]
  constraints := [⟨[1, 1], .atLeast, 2⟩, ⟨[1, 0], .atMost, 5⟩, ⟨[1, -1], .equal, 1⟩]

/-- Two of the prices are negative, and the bound, thirteen quarters, is not attained. -/
theorem weak_duality_eachRestriction :
    ∃ d, Dual.ofProblem eachRestriction = .ok d ∧ d.Admits [5 / 2, -1 / 4, -1 / 2] 0 ∧
      eachRestriction.Feasible [3 / 2, 1 / 2] ∧
      13 / 4 ≤ eachRestriction.objectiveAt [3 / 2, 1 / 2] := by
  have hregular : eachRestriction.Regular := by decide +kernel
  have hfeasible : eachRestriction.Feasible [3 / 2, 1 / 2] := by decide +kernel
  have hadmits : eachRestriction.dual.Admits [5 / 2, -1 / 4, -1 / 2] 0 := by decide +kernel
  have hvalue : Scalar.dot eachRestriction.dual.objective [5 / 2, -1 / 4, -1 / 2] = 13 / 4 := by
    decide +kernel
  obtain ⟨d, hd, hbound⟩ := weak_duality hregular
  cases (Dual.ofProblem_eq hregular).symm.trans hd
  exact ⟨_, hd, hadmits, hfeasible, hvalue ▸ hbound _ _ hfeasible hadmits⟩

end TableauSimplex
