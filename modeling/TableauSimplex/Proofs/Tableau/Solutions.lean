import TableauSimplex.Proofs.Tableau.Start

/-!
# Solutions of the first tableau

The equations of the first tableau say what the program says: each constraint with its auxiliary
variables holds, and the objective value is the gain less the penalty on all artificial variables
(`start_solves_iff`).

* `solves_extend`: a relaxed point extends to a nonnegative solution, in which the artificial
  variables are the shortfalls.
* `relaxed_of_solves`: the decision variables of a nonnegative solution are a relaxed point, and no
  constraint falls short of more than its artificial variable.
-/

namespace TableauSimplex

namespace Problem

variable {p : Problem Rat} {penalty : Rat} {i k : Nat} {v : Nat → Rat} {x : List Rat}

/-! ## The objective row -/

/-- The objective row with the penalty in the columns of the artificial variables, before it is
eliminated. -/
def costVec (p : Problem Rat) (penalty : Rat) : Nat → Rat :=
  p.costRow.vec + ∑ i ∈ Finset.range p.constraints.length,
    (p.auxiliaryAt i).artificial.elim 0 fun c => Pi.single c penalty

/-- Elimination subtracts constraint rows from the objective row. -/
theorem objective_sub_costVec_mem (hp : p.Regular) :
    (Tableau.start p penalty).objective.vec - p.costVec penalty ∈
      (Tableau.start p penalty).rowSpace := by
  rw [Tableau.vec_objective_start hp, costVec, add_sub_add_left_eq_sub, ← Finset.sum_sub_distrib]
  refine Submodule.sum_mem _ fun i hi => ?_
  have him := Finset.mem_range.mp hi
  have hm := Tableau.vec_mem_rowSpace (t := Tableau.start p penalty) (i := i)
    (by rwa [Tableau.length_rows_start])
  rw [Tableau.rowAt_start him] at hm
  cases ha : (p.auxiliaryAt i).artificial with
  | none => simp [penaltyOf, ha]
  | some c =>
    simp only [penaltyOf, ha, Option.elim, sub_sub_cancel_left]
    exact Submodule.neg_mem _ (Submodule.smul_mem _ _ hm)

private theorem excess_costRow (hp : p.Regular) (v : Nat → Rat) :
    Row.excess (p.numVars + p.numAuxiliary) v p.costRow.vec = -p.gain (p.decision v) := by
  rw [Row.excess_vec (width_costRow hp), Row.lhs, width_costRow hp, Finset.sum_range_add, gain_eq,
    decision, Scalar.dot_range (length_maximized hp), ← Finset.sum_neg_distrib]
  have hz : ∑ k ∈ Finset.range p.numAuxiliary,
      p.costRow.vec (p.numVars + k) * v (p.numVars + k) = 0 :=
    Finset.sum_eq_zero fun k _ => by rw [vec_costRow_auxiliary hp (by omega), zero_mul]
  have hd : ∀ j ∈ Finset.range p.numVars, p.costRow.vec j * v j =
      -((Tableau.maximized p).getD j 0 * v j) := fun j hj => by
    rw [vec_costRow_decision hp (Finset.mem_range.mp hj), neg_mul]
  rw [hz, Finset.sum_congr rfl hd, add_zero]
  exact sub_zero _

private theorem excess_single (n c : Nat) (hc : c < n) (a : Rat) (v : Nat → Rat) :
    Row.excess n v (Pi.single c a) = a * v c := by
  have hs : ∀ j ∈ Finset.range n, (Pi.single c a : Nat → Rat) j * v j =
      if c = j then a * v j else 0 := fun j _ => by
    by_cases h : c = j
    · subst h
      simp
    · simp [h, Ne.symm h]
  simp only [Row.excess, LinearMap.coe_mk, AddHom.coe_mk]
  rw [Finset.sum_congr rfl hs, Finset.sum_ite_eq, if_pos (Finset.mem_range.mpr hc)]
  simp [(Nat.ne_of_lt hc).symm]

/-- At a point the cost is the penalty on the artificial variables less the gain. -/
theorem excess_costVec (hp : p.Regular) (v : Nat → Rat) :
    Row.excess (p.numVars + p.numAuxiliary) v (p.costVec penalty) =
      penalty * p.artificialSum v - p.gain (p.decision v) := by
  have hs : ∀ i ∈ Finset.range p.constraints.length,
      Row.excess (p.numVars + p.numAuxiliary) v
        ((p.auxiliaryAt i).artificial.elim 0 fun c => Pi.single c penalty) =
        penalty * valueAt v (p.auxiliaryAt i).artificial := fun i hi => by
    cases ha : (p.auxiliaryAt i).artificial with
    | none => simp
    | some c =>
      have hc := mem_columns (Finset.mem_range.mp hi) (Auxiliary.mem_columns_of_artificial ha)
      exact excess_single _ c hc.2 penalty v
  rw [costVec, map_add, map_sum, excess_costRow hp, Finset.sum_congr rfl hs, ← Finset.mul_sum,
    artificialSum]
  ring

/-! ## Equations -/

/-- The constraint rows say that each constraint holds with its auxiliary variables. -/
theorem forall_rows_start_iff (hp : p.Regular) :
    (∀ r ∈ (Tableau.start p penalty).rows, r.lhs v = r.rhs) ↔
      ∀ i < p.constraints.length, (p.constraintAt i).lhs (p.decision v) +
        (valueAt v (p.auxiliaryAt i).slack - valueAt v (p.auxiliaryAt i).surplus +
          valueAt v (p.auxiliaryAt i).artificial) = (p.constraintAt i).rhs := by
  rw [Tableau.forall_mem_rows, Tableau.length_rows_start]
  refine forall₂_congr fun i hi => ?_
  rw [Tableau.rowAt_start hi, lhs_rowOf hp hi]
  rfl

/-- **What the equations of the first tableau say.** -/
theorem start_solves_iff (hp : p.Regular) {z : Rat} :
    (Tableau.start p penalty).Solves v z ↔
      (∀ i < p.constraints.length, (p.constraintAt i).lhs (p.decision v) +
        (valueAt v (p.auxiliaryAt i).slack - valueAt v (p.auxiliaryAt i).surplus +
          valueAt v (p.auxiliaryAt i).artificial) = (p.constraintAt i).rhs) ∧
      z = p.gain (p.decision v) - penalty * p.artificialSum v := by
  have hws : (Tableau.start p penalty).WellShaped := Tableau.wellShaped_start hp
  rw [← forall_rows_start_iff hp, hws.solves_iff, hws.rows_hold_iff, Tableau.numColumns_start hp]
  refine and_congr_right fun hrows => ?_
  -- On solutions of the rows the objective row and the cost agree.
  have hd := hrows _ (objective_sub_costVec_mem hp)
  rw [map_sub, sub_eq_zero] at hd
  rw [hd, excess_costVec hp]
  constructor <;> intro h <;> linarith

/-! ## From a point of the program to a solution -/

/-- What a point leaves for an auxiliary column of one constraint. -/
def fill (p : Problem Rat) (x : List Rat) (i j : Nat) : Rat :=
  if (p.auxiliaryAt i).slack = some j then (p.constraintAt i).slack x
  else if (p.auxiliaryAt i).surplus = some j then (p.constraintAt i).surplus x
  else if (p.auxiliaryAt i).artificial = some j then (p.constraintAt i).shortfall x
  else 0

/-- A point of the program with a value for every auxiliary column. -/
def extend (p : Problem Rat) (x : List Rat) (j : Nat) : Rat :=
  if j < p.numVars then x.getD j 0
  else ∑ i ∈ Finset.range p.constraints.length, p.fill x i j

theorem decision_extend (hx : x.length = p.numVars) : p.decision (p.extend x) = x := by
  apply List.ext_getElem
  · rw [length_decision, hx]
  · intro j h1 h2
    simp only [decision, List.getElem_map, List.getElem_range, extend]
    rw [if_pos (hx ▸ h2), List.getD_eq_getElem _ _ h2]

theorem fill_eq_zero {j : Nat} (h : j ∉ (p.auxiliaryAt i).columns) : p.fill x i j = 0 := by
  simp only [Auxiliary.columns, List.mem_append, Option.mem_toList, not_or] at h
  obtain ⟨⟨hs, he⟩, ha⟩ := h
  rw [fill, if_neg hs, if_neg he, if_neg ha]

theorem extend_eq_zero {j : Nat} (hj : p.numVars + p.numAuxiliary ≤ j) : p.extend x j = 0 := by
  rw [extend, if_neg (by omega)]
  refine Finset.sum_eq_zero fun i hi => fill_eq_zero fun hc => ?_
  exact absurd (mem_columns (Finset.mem_range.mp hi) hc).2 (not_lt.mpr hj)

theorem extend_column (hi : i < p.constraints.length) {c : Nat}
    (hc : c ∈ (p.auxiliaryAt i).columns) : p.extend x c = p.fill x i c := by
  have hn := (mem_columns hi hc).1
  rw [extend, if_neg (by omega)]
  refine Finset.sum_eq_single i (fun k hk hki => ?_) fun h => absurd (Finset.mem_range.mpr hi) h
  exact fill_eq_zero (disjoint_columns (Ne.symm hki) hi (Finset.mem_range.mp hk) hc)

theorem fill_nonneg (hx : (p.constraintAt i).Relaxed x) (j : Nat) : 0 ≤ p.fill x i j := by
  unfold fill
  split
  · exact Constraint.slack_nonneg _ hx
  · split
    · exact Constraint.surplus_nonneg _ _
    · split
      · exact Constraint.shortfall_nonneg _ _
      · exact le_refl _

/-- The auxiliary columns of a constraint hold its slack, its surplus and its shortfall. -/
theorem valueAt_extend (hi : i < p.constraints.length) :
    valueAt (p.extend x) (p.auxiliaryAt i).slack = (p.constraintAt i).slack x ∧
      valueAt (p.extend x) (p.auxiliaryAt i).surplus = (p.constraintAt i).surplus x ∧
      valueAt (p.extend x) (p.auxiliaryAt i).artificial = (p.constraintAt i).shortfall x := by
  have he := fun c => extend_column (x := x) (c := c) hi
  unfold fill at he
  rcases auxiliaryAt_cases hi with ⟨hs, s, ha⟩ | ⟨hs, e, a, hne, ha⟩ | ⟨hs, a, ha⟩ <;>
    rw [ha] at he ⊢ <;>
    simp only [valueAt_none, valueAt_some, Constraint.slack, Constraint.surplus,
      Constraint.shortfall, hs] at he ⊢
  · refine ⟨?_, trivial, trivial⟩
    rw [he s (by simp [Auxiliary.columns]), if_pos rfl]
  · refine ⟨trivial, ?_, ?_⟩
    · rw [he e (by simp [Auxiliary.columns])]
      simp
    · rw [he a (by simp [Auxiliary.columns])]
      simp [hne]
  · refine ⟨trivial, trivial, ?_⟩
    rw [he a (by simp [Auxiliary.columns])]
    simp

theorem artificialSum_extend : p.artificialSum (p.extend x) = p.shortfall x :=
  Finset.sum_congr rfl fun _ hi => (valueAt_extend (Finset.mem_range.mp hi)).2.2

/-- **A relaxed point extends to a nonnegative solution** whose artificial variables are the
shortfalls. -/
theorem solves_extend (penalty : Rat) (hp : p.Regular) (hx : p.Relaxed x) :
    (Tableau.start p penalty).Solves (p.extend x) (p.gain x - penalty * p.shortfall x) ∧
      ∀ j, 0 ≤ p.extend x j := by
  have hrelaxed := forall_mem_constraints.mp hx.relaxed
  constructor
  · rw [start_solves_iff hp, decision_extend hx.length, artificialSum_extend]
    refine ⟨fun i hi => ?_, rfl⟩
    obtain ⟨hslack, hsurplus, hartificial⟩ := valueAt_extend (x := x) hi
    rw [hslack, hsurplus, hartificial]
    exact Constraint.lhs_add_eq_rhs _ (hrelaxed i hi)
  · intro j
    rw [extend]
    split
    · exact getD_nonneg hx.nonneg j
    · exact Finset.sum_nonneg fun i hi => fill_nonneg (hrelaxed i (Finset.mem_range.mp hi)) j

/-! ## From a solution to a point of the program -/

theorem valueAt_nonneg (hv : ∀ j, 0 ≤ v j) (col : Option Nat) : 0 ≤ valueAt v col := by
  cases col with
  | none => exact le_refl _
  | some c => exact hv c

/-- **The decision variables of a nonnegative solution are a relaxed point,** and no constraint
falls short of more than its artificial variable. -/
theorem relaxed_of_solves (hp : p.Regular) (hv : ∀ j, 0 ≤ v j) {z : Rat}
    (h : (Tableau.start p penalty).Solves v z) :
    p.Relaxed (p.decision v) ∧ ∀ i < p.constraints.length,
      (p.constraintAt i).shortfall (p.decision v) ≤ valueAt v (p.auxiliaryAt i).artificial := by
  obtain ⟨hrows, -⟩ := (start_solves_iff hp).mp h
  have hi : ∀ i < p.constraints.length, (p.constraintAt i).Relaxed (p.decision v) ∧
      (p.constraintAt i).shortfall (p.decision v) ≤ valueAt v (p.auxiliaryAt i).artificial := by
    intro i hi
    have hr := hrows i hi
    have h1 := valueAt_nonneg hv (p.auxiliaryAt i).slack
    have h2 := valueAt_nonneg hv (p.auxiliaryAt i).surplus
    have h3 := valueAt_nonneg hv (p.auxiliaryAt i).artificial
    unfold Constraint.Relaxed Constraint.shortfall
    rcases auxiliaryAt_cases hi with ⟨hs, s, ha⟩ | ⟨hs, e, a, -, ha⟩ | ⟨hs, a, ha⟩ <;>
      rw [ha] at hr h1 h2 h3 ⊢ <;> simp only [hs] <;>
      simp only [valueAt_none, valueAt_some] at hr h1 h2 h3 ⊢
    · exact ⟨by linarith, le_refl _⟩
    · exact ⟨trivial, max_le h3 (by linarith)⟩
    · exact ⟨by linarith, max_le h3 (by linarith)⟩
  refine ⟨⟨length_decision, fun a ha => ?_, ?_⟩, fun i him => (hi i him).2⟩
  · obtain ⟨j, -, rfl⟩ := List.mem_map.mp ha
    exact hv j
  · exact forall_mem_constraints.mpr fun i him => (hi i him).1

theorem shortfall_le_artificialSum (hp : p.Regular) (hv : ∀ j, 0 ≤ v j) {z : Rat}
    (h : (Tableau.start p penalty).Solves v z) : p.shortfall (p.decision v) ≤ p.artificialSum v :=
  Finset.sum_le_sum fun i hi => (relaxed_of_solves hp hv h).2 i (Finset.mem_range.mp hi)

end Problem

end TableauSimplex
