import TableauSimplex.Proofs.Dual
import TableauSimplex.Proofs.Solve

/-!
# Reported prices

The objective row of every tableau of a run is the cost of the program plus a combination of its
constraint rows. The multipliers of that combination are the marginal prices (`marginalCost_eq`),
each read off a column of its own constraint: a slack shows the price, a surplus its negative, an
artificial variable the price and the penalty (`vec_auxiliary`).

* `Solution.ReadOff.dual_admits`, `Solution.ReadOff.dot_shadowPrices`: what the prices of a solution
  are in the dual.
* `solve_prices`: the prices of a run that did not stop early satisfy the dual program up to the
  entering tolerance, and the dual objective at the prices is the objective value however the run
  ended.
-/

namespace TableauSimplex

variable {p : Problem Rat} {s : Settings Rat} {withGraph : Bool} {sol : Solution Rat}
  {t : Tableau Rat} {penalty : Rat} {i j : Nat}

namespace Problem

/-- The penalty stands in the columns of artificial variables and nowhere else. -/
theorem costVec_column (hp : p.Regular) (hi : i < p.constraints.length) {c : Nat}
    (hc : c ∈ (p.auxiliaryAt i).columns) :
    p.costVec penalty c = if (p.auxiliaryAt i).artificial = some c then penalty else 0 := by
  rw [costVec, Pi.add_apply, Finset.sum_apply, vec_costRow_auxiliary hp (mem_columns hi hc).1,
    zero_add, Finset.sum_eq_single_of_mem i (Finset.mem_range.mpr hi)]
  · cases ha : (p.auxiliaryAt i).artificial with
    | none => simp
    | some a =>
      by_cases hac : a = c
      · subst hac
        simp
      · simp [hac, Ne.symm hac]
  · intro k hk hki
    cases ha : (p.auxiliaryAt k).artificial with
    | none => simp
    | some a =>
      have hne : c ≠ a := fun h => disjoint_columns (Ne.symm hki) hi (Finset.mem_range.mp hk) hc
        (h ▸ Auxiliary.mem_columns_of_artificial ha)
      simp [hne]

/-- Columns that belong to no artificial variable carry no penalty. -/
theorem costVec_of_not_artificial {c : Nat}
    (hc : ∀ i < p.constraints.length, (p.auxiliaryAt i).artificial ≠ some c) :
    p.costVec penalty c = p.costRow.vec c := by
  rw [costVec, Pi.add_apply, Finset.sum_apply, Finset.sum_eq_zero, add_zero]
  intro k hk
  cases ha : (p.auxiliaryAt k).artificial with
  | none => simp
  | some a =>
    have hne : c ≠ a := fun h => hc k (Finset.mem_range.mp hk) (h ▸ ha)
    simp [hne]

/-- Decision columns and the right side carry no penalty. -/
theorem costVec_of_not_column {c : Nat}
    (hc : c < p.numVars ∨ p.numVars + p.numAuxiliary ≤ c) :
    p.costVec penalty c = p.costRow.vec c := by
  refine costVec_of_not_artificial fun k hk ha => ?_
  have hm := mem_columns hk (Auxiliary.mem_columns_of_artificial ha)
  omega

end Problem

namespace Tableau

/-! ## Multipliers -/

/-- The objective row of a tableau is the cost of a program and the constraint rows as often as the
multipliers say. -/
def PricedBy (p : Problem Rat) (penalty : Rat) (t : Tableau Rat) (y : Nat → Rat) : Prop :=
  t.objective.vec =
    p.costVec penalty + ∑ i ∈ Finset.range p.constraints.length, y i • (p.rowOf i).vec

/-- **Every tableau of a run has multipliers.** -/
theorem SameEquations.exists_pricedBy (hp : p.Regular)
    (h : SameEquations (start p penalty) t) : ∃ y, t.PricedBy p penalty y := by
  have hm := Submodule.add_mem _ h.objective (Problem.objective_sub_costVec_mem hp)
  rw [sub_add_sub_cancel] at hm
  obtain ⟨y, hy⟩ := exists_sum_of_mem_rowSpace hm
  rw [length_rows_start] at hy
  refine ⟨y, ?_⟩
  rw [PricedBy, ← sub_eq_iff_eq_add', hy]
  refine Finset.sum_congr rfl fun i hi => ?_
  rw [rowAt_start (Finset.mem_range.mp hi)]

namespace PricedBy

variable {y : Nat → Rat} (hy : t.PricedBy p penalty y) (hp : p.Regular)

include hy hp

/-- A decision column shows by how much its cost is covered. -/
theorem vec_decision (hj : j < p.numVars) :
    t.objective.vec j =
      (∑ i ∈ Finset.range p.constraints.length, (p.column j).getD i 0 * y i) -
        (maximized p).getD j 0 := by
  rw [hy, Pi.add_apply, Finset.sum_apply, Problem.costVec_of_not_column (.inl hj),
    Problem.vec_costRow_decision hp hj, neg_add_eq_sub]
  congr 1
  refine Finset.sum_congr rfl fun i hi => ?_
  rw [Pi.smul_apply, smul_eq_mul, Problem.vec_rowOf_decision hp (Finset.mem_range.mp hi) hj,
    Problem.getD_column (Finset.mem_range.mp hi), mul_comm]

/-- An auxiliary column shows the multiplier of its constraint, by its coefficient, and its
penalty. -/
theorem vec_column (hi : i < p.constraints.length) {c : Nat} (hc : c ∈ (p.auxiliaryAt i).columns) :
    t.objective.vec c = (if (p.auxiliaryAt i).artificial = some c then penalty else 0) +
      y i * (p.auxiliaryAt i).coefficient c := by
  rw [hy, Pi.add_apply, Finset.sum_apply, Problem.costVec_column hp hi hc,
    Finset.sum_eq_single_of_mem i (Finset.mem_range.mpr hi)]
  · rw [Pi.smul_apply, smul_eq_mul, Problem.vec_rowOf_column hp hi hi hc]
  · intro k hk hki
    rw [Pi.smul_apply, Problem.vec_rowOf_other hp (Finset.mem_range.mp hk) hi hki hc, smul_zero]

/-- **What the columns of a constraint show:** the slack its multiplier, the surplus the negative of
it, the artificial variable the penalty besides. -/
theorem vec_auxiliary (hi : i < p.constraints.length) {c : Nat} :
    ((p.auxiliaryAt i).slack = some c → t.objective.vec c = y i) ∧
      ((p.auxiliaryAt i).surplus = some c → t.objective.vec c = -y i) ∧
      ((p.auxiliaryAt i).artificial = some c → t.objective.vec c = penalty + y i) := by
  obtain ⟨hslack, hsurplus, hartificial⟩ := Problem.coefficient_auxiliaryAt hi (c := c)
  refine ⟨fun h => ?_, fun h => ?_, fun h => ?_⟩
  · rw [hy.vec_column hp hi (Auxiliary.mem_columns_of_slack h), if_neg (hslack h).2, (hslack h).1,
      zero_add, mul_one]
  · rw [hy.vec_column hp hi (Auxiliary.mem_columns_of_surplus h), if_neg (hsurplus h).2,
      (hsurplus h).1, zero_add, mul_neg_one]
  · rw [hy.vec_column hp hi (Auxiliary.mem_columns_of_artificial h), if_pos h, hartificial h,
      mul_one]

/-- The right side of the objective row is the value of the right sides at the multipliers. -/
theorem rhs_objective (hn : t.numColumns = p.numVars + p.numAuxiliary) :
    t.objective.rhs = ∑ i ∈ Finset.range p.constraints.length, (p.constraintAt i).rhs * y i := by
  have hw : t.objective.width = p.numVars + p.numAuxiliary := hn
  rw [← Row.vec_width, hy, Pi.add_apply, Finset.sum_apply, hw,
    Problem.costVec_of_not_column (.inr (le_refl _)), ← Problem.width_costRow hp, Row.vec_width]
  refine (zero_add _).trans (Finset.sum_congr rfl fun i hi => ?_)
  rw [Problem.width_costRow hp, ← Problem.width_rowOf hp (Finset.mem_range.mp hi), Pi.smul_apply,
    Row.vec_width, smul_eq_mul, mul_comm]
  rfl

end PricedBy

/-- The reduced cost of a constraint's column in one of the lists of auxiliary columns. -/
private theorem reducedCost_eq (hn : t.numColumns = p.numVars + p.numAuxiliary)
    {cols : List (Option Nat)} {f : Auxiliary → Option Nat} (hcols : cols = p.auxiliary.map f)
    (hi : i < p.constraints.length) {c : Nat} (hf : f (p.auxiliaryAt i) = some c)
    (hc : c ∈ (p.auxiliaryAt i).columns) : t.reducedCost cols i = t.objective.vec c := by
  have ha : i < p.auxiliary.length := Problem.length_auxiliary ▸ hi
  have hlt := (Problem.mem_columns hi hc).2
  have hw : c ≤ t.objective.width := by
    have : t.objective.width = t.numColumns := rfl
    omega
  rw [Problem.auxiliaryAt_of_lt ha] at hf
  rw [reducedCost, hcols, List.getElem?_map, List.getElem?_eq_getElem ha]
  simp only [Option.map_some, hf, Option.join]
  exact Row.entry_eq_vec hw

/-- **Each marginal cost is the multiplier of its constraint,** whichever column it is read off. -/
theorem PricedBy.marginalCost_eq {y : Nat → Rat} (hy : t.PricedBy p penalty y) (hp : p.Regular)
    (h : SameEquations (start p penalty) t) (hi : i < p.constraints.length) :
    t.marginalCost i (p.constraintAt i).sign = y i := by
  have hn := h.numColumns_eq hp
  have hslack : t.slackCols = p.auxiliary.map (·.slack) := congrArg slackCols h.frame
  have hsurplus : t.surplusCols = p.auxiliary.map (·.surplus) := congrArg surplusCols h.frame
  have hartificial : t.artificialPlaces = p.auxiliary.map (·.artificial) := by
    have hc : t.artificialCols = p.auxiliary.map fun a => a.artificial.map Int.ofNat :=
      congrArg artificialCols h.frame
    rw [artificialPlaces, hc, List.map_map]
    refine List.map_congr_left fun a _ => ?_
    cases ha : a.artificial <;> simp [ha, Int.toNat?]
  have hpenalty : t.penalty = penalty := congrArg Tableau.penalty h.frame
  rcases Problem.auxiliaryAt_cases hi with ⟨hs, c, ha⟩ | ⟨hs, e, a, -, ha⟩ | ⟨hs, a, ha⟩ <;>
    rw [hs, marginalCost]
  · have hc : (p.auxiliaryAt i).slack = some c := by rw [ha]
    rw [reducedCost_eq hn hslack hi hc (Auxiliary.mem_columns_of_slack hc),
      (hy.vec_auxiliary hp hi).1 hc]
  · have hc : (p.auxiliaryAt i).surplus = some e := by rw [ha]
    rw [reducedCost_eq hn hsurplus hi hc (Auxiliary.mem_columns_of_surplus hc),
      (hy.vec_auxiliary hp hi).2.1 hc, neg_neg]
  · have hc : (p.auxiliaryAt i).artificial = some a := by rw [ha]
    rw [reducedCost_eq hn hartificial hi hc (Auxiliary.mem_columns_of_artificial hc),
      (hy.vec_auxiliary hp hi).2.2 hc, hpenalty, add_sub_cancel_left]

/-- The prices of a tableau are its multipliers, in the sense of the program. -/
theorem PricedBy.shadowPrices_eq {y : Nat → Rat} (hy : t.PricedBy p penalty y) (hp : p.Regular)
    (h : SameEquations (start p penalty) t) :
    t.shadowPrices p = (List.range p.constraints.length).map fun i => p.sense.orient (y i) := by
  have hm : t.minimize = (p.sense == .minimize) := congrArg minimize h.frame
  apply List.ext_getElem
  · simp [shadowPrices]
  · intro i h1 h2
    have hi : i < p.constraints.length := by simpa using h2
    have hc := hy.marginalCost_eq hp h hi
    rw [Problem.constraintAt_of_lt hi] at hc
    simp only [shadowPrices, List.getElem_mapIdx, List.getElem_map, List.getElem_range, hc, hm]
    cases p.sense <;> simp [Sense.orient]

/-! ## The dual program -/

/-- The left side of a constraint of the dual at the prices of a tableau. -/
private theorem lhs_column (y : Nat → Rat) (c : Constraint Rat) (hc : c.coefficients = p.column j) :
    c.lhs ((List.range p.constraints.length).map fun i => p.sense.orient (y i)) =
      p.sense.orient
        (∑ i ∈ Finset.range p.constraints.length, (p.column j).getD i 0 * y i) := by
  rw [Constraint.lhs, hc, Scalar.dot_range (by simp [Problem.column]), Sense.sum_orient]

namespace PricedBy

variable {y : Nat → Rat} (hy : t.PricedBy p penalty y) (hp : p.Regular)
  (h : SameEquations (start p penalty) t)

include hy hp h

/-- **The objective of the dual** at the prices is the objective value. -/
theorem dot_shadowPrices :
    Scalar.dot p.dual.objective (t.shadowPrices p) = t.objectiveValue := by
  rw [hy.shadowPrices_eq hp h, Problem.dual, Scalar.dot_range (by simp)]
  simp only [p.getD_rhs]
  rw [Sense.sum_orient, h.objectiveValue, hy.rhs_objective hp (h.numColumns_eq hp)]

/-- Where no reduced cost is below minus a tolerance, the prices satisfy every constraint of the
dual up to it. -/
theorem isSatisfied_shadowPrices {tol : Rat} (ho : ∀ j < t.numColumns, -tol ≤ t.objective.vec j)
    {c : Constraint Rat} (hc : c ∈ p.dual.constraints) :
    c.isSatisfied (t.shadowPrices p) tol = true := by
  obtain ⟨j, hj, rfl⟩ := List.mem_map.mp hc
  have hj' := List.mem_range.mp hj
  have hcost := ho j (by rw [h.numColumns_eq hp]; omega)
  rw [hy.vec_decision hp hj', Problem.getD_maximized] at hcost
  rw [hy.shadowPrices_eq hp h, Constraint.isSatisfied_iff, lhs_column y _ rfl]
  cases hs : p.sense <;> simp only [hs, Dual.constraintSign, Sense.orient] at hcost ⊢ <;>
    linarith

/-- Where no reduced cost is below minus a tolerance, every price keeps the restriction of its
constraint up to it. The two signs of inequalities differ in the column they are read off, the two
senses in the sign of the price. -/
theorem admits_shadowPrices {tol : Rat} (ho : ∀ j < t.numColumns, -tol ≤ t.objective.vec j)
    (hi : i < p.constraints.length) :
    (Restriction.ofSign p.sense (p.constraintAt i).sign).Admits tol (p.sense.orient (y i)) := by
  have hvec : ∀ c ∈ (p.auxiliaryAt i).columns, -tol ≤ t.objective.vec c := fun c hc =>
    ho c (by rw [h.numColumns_eq hp]; exact (Problem.mem_columns hi hc).2)
  rcases Problem.auxiliaryAt_cases hi with ⟨hs, c, ha⟩ | ⟨hs, e, a, -, ha⟩ | ⟨hs, -, -⟩ <;>
    rw [hs]
  · have hc : (p.auxiliaryAt i).slack = some c := by rw [ha]
    have hy0 := hvec c (Auxiliary.mem_columns_of_slack hc)
    rw [(hy.vec_auxiliary hp hi).1 hc] at hy0
    cases p.sense <;> simp only [Restriction.ofSign, Restriction.Admits, Sense.orient,
      reduceCtorEq, ↓reduceIte] <;> linarith
  · have hc : (p.auxiliaryAt i).surplus = some e := by rw [ha]
    have hy0 := hvec e (Auxiliary.mem_columns_of_surplus hc)
    rw [(hy.vec_auxiliary hp hi).2.1 hc] at hy0
    cases p.sense <;> simp only [Restriction.ofSign, Restriction.Admits, Sense.orient,
      reduceCtorEq, ↓reduceIte] <;> linarith
  · exact trivial

theorem dual_admits {tol : Rat} (ho : ∀ j < t.numColumns, -tol ≤ t.objective.vec j) :
    p.dual.Admits (t.shadowPrices p) tol where
  constraints _ hc := hy.isSatisfied_shadowPrices hp h ho hc
  restrictions := by
    rw [hy.shadowPrices_eq hp h, List.forall₂_iff_get]
    refine ⟨by simp [Problem.dual], fun i h1 h2 => ?_⟩
    have hi : i < p.constraints.length := by simpa using h2
    have ha := hy.admits_shadowPrices hp h ho hi
    rw [Problem.constraintAt_of_lt hi] at ha
    simpa [Problem.dual] using ha

end PricedBy

end Tableau

namespace Solution.ReadOff

variable (h : sol.ReadOff p s t) (hp : p.Regular)

include h hp

/-- Prices read off a tableau with no column to enter satisfy the dual up to the entering
tolerance. -/
theorem dual_admits (hnone : t.enteringColumn s.entering = .ok none) :
    p.dual.Admits sol.shadowPrices s.entering := by
  obtain ⟨y, hy⟩ := h.sameEquations.exists_pricedBy hp
  have hs := t.enteringColumn_spec s.entering
  rw [hnone] at hs
  rw [h.shadowPrices]
  exact hy.dual_admits hp h.sameEquations hs

theorem dot_shadowPrices : Scalar.dot p.dual.objective sol.shadowPrices = sol.objectiveValue := by
  obtain ⟨y, hy⟩ := h.sameEquations.exists_pricedBy hp
  rw [h.shadowPrices, h.objectiveValue]
  exact hy.dot_shadowPrices hp h.sameEquations

end Solution.ReadOff

/-- **Reported prices.** However a run ended, the dual objective at the prices is the objective
value. When it ended with no column to enter, the prices satisfy the dual program up to the entering
tolerance, also where the program is reported to be infeasible. -/
theorem solve_prices (hp : p.Regular) (h : solve p s withGraph = .ok sol) :
    ∃ d, Dual.ofProblem p = .ok d ∧
      (sol.status = .optimal ∨ sol.status = .infeasible → d.Admits sol.shadowPrices s.entering) ∧
      Scalar.dot d.objective sol.shadowPrices = sol.objectiveValue := by
  obtain ⟨t, hread⟩ := solve_spec hp h
  refine ⟨p.dual, Dual.ofProblem_eq hp, fun hstatus => ?_, hread.dot_shadowPrices hp⟩
  have hleft := hread.leftWith
  rcases hstatus with hs | hs <;> rw [hs] at hleft <;> exact hread.dual_admits hp hleft.1

/-- A row of each sign, the last one with a negative right side. -/
def negativeRow : Problem Rat where
  sense := .minimize
  names := [.text "x", .text "y"]
  objective := [2, 3]
  constraints := [⟨[1, 1], .atLeast, 4⟩, ⟨[1, 0], .atMost, 3⟩, ⟨[1, -1], .equal, -1⟩]

/-- The prices under the default settings. -/
theorem solve_prices_negativeRow :
    ∃ sol d, solve negativeRow {} false = .ok sol ∧ sol.status = .optimal ∧
      Dual.ofProblem negativeRow = .ok d ∧ d.Admits sol.shadowPrices 1e-9 ∧
      Scalar.dot d.objective sol.shadowPrices = sol.objectiveValue := by
  obtain ⟨sol, h, hstatus⟩ := exists_solution negativeRow {} false .optimal (by decide +kernel)
  obtain ⟨d, hd, hadmits, hdot⟩ := solve_prices (by decide +kernel) h
  exact ⟨sol, d, h, hstatus, hd, hadmits (.inl hstatus), hdot⟩

end TableauSimplex
