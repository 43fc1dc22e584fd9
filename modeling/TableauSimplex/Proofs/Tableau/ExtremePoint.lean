import TableauSimplex.Proofs.Tableau.BasicPoint

/-!
# Basic points are extreme

Slacks and surpluses of feasible points are affine, so that a mean of two feasible points extends to
the mean of their extensions (`Mean.extend_eq`). A basic point is zero off the basis. If it is a
proper mean of two feasible points, then both are zero there as well, as nothing is negative, and so
they are the basic point itself (`HasRowsOf.eq_of_mean`).
-/

namespace TableauSimplex

/-- A point is the weighted mean of two others. -/
structure Mean (a b : Rat) (x₁ x₂ x : List Rat) : Prop where
  weights : a + b = 1
  getD_eq : ∀ j, x.getD j 0 = a * x₁.getD j 0 + b * x₂.getD j 0

namespace Mean

variable {p : Problem Rat} {x x₁ x₂ : List Rat} {a b : Rat} {i : Nat} (h : Mean a b x₁ x₂ x)

include h

theorem lhs_eq (c : Constraint Rat) : c.lhs x = a * c.lhs x₁ + b * c.lhs x₂ := by
  simp only [Constraint.lhs, Scalar.dot_eq, Finset.mul_sum, ← Finset.sum_add_distrib]
  refine Finset.sum_congr rfl fun j _ => ?_
  rw [h.getD_eq]
  ring

theorem slack_eq (c : Constraint Rat) : c.slack x = a * c.slack x₁ + b * c.slack x₂ := by
  unfold Constraint.slack
  cases c.sign with
  | atMost =>
    simp only
    rw [h.lhs_eq]
    linear_combination (-c.rhs) * h.weights
  | atLeast => simp
  | equal => simp

/-- Where a constraint holds, its surplus is affine. -/
theorem surplus_eq {c : Constraint Rat} (hx : c.Holds x) (h₁ : c.Holds x₁) (h₂ : c.Holds x₂) :
    c.surplus x = a * c.surplus x₁ + b * c.surplus x₂ := by
  unfold Constraint.surplus
  unfold Constraint.Holds at hx h₁ h₂
  cases hs : c.sign with
  | atMost => simp
  | atLeast =>
    simp only [hs] at hx h₁ h₂ ⊢
    rw [max_eq_right (sub_nonneg.mpr hx), max_eq_right (sub_nonneg.mpr h₁),
      max_eq_right (sub_nonneg.mpr h₂), h.lhs_eq]
    linear_combination c.rhs * h.weights
  | equal => simp

variable (hx : p.Feasible x) (h₁ : p.Feasible x₁) (h₂ : p.Feasible x₂)

include hx h₁ h₂

theorem fill_eq (hi : i < p.constraints.length) (j : Nat) :
    p.fill x i j = a * p.fill x₁ i j + b * p.fill x₂ i j := by
  have holds : ∀ {y}, p.Feasible y → (p.constraintAt i).Holds y := fun hy =>
    Problem.forall_mem_constraints.mp hy.holds i hi
  have shortfall : ∀ {y}, p.Feasible y → (p.constraintAt i).shortfall y = 0 := fun hy =>
    ((Constraint.holds_iff_relaxed _ _).mp (holds hy)).2
  unfold Problem.fill
  split
  · exact h.slack_eq _
  · split
    · exact h.surplus_eq (holds hx) (holds h₁) (holds h₂)
    · rw [shortfall hx, shortfall h₁, shortfall h₂]
      simp

/-- **The mean of feasible points extends to the mean of their extensions.** -/
theorem extend_eq (j : Nat) : p.extend x j = a * p.extend x₁ j + b * p.extend x₂ j := by
  unfold Problem.extend
  split
  · exact h.getD_eq j
  · rw [Finset.mul_sum, Finset.mul_sum, ← Finset.sum_add_distrib]
    exact Finset.sum_congr rfl fun i hi => h.fill_eq hx h₁ h₂ (Finset.mem_range.mp hi) j

end Mean

/-- **A basic point that is feasible is extreme:** of the feasible points only itself makes a proper
mean of it. -/
theorem Tableau.HasRowsOf.eq_of_mean {p : Problem Rat} {t : Tableau Rat} {x₁ x₂ : List Rat}
    {a b : Rat} (hp : p.Regular) (h : t.HasRowsOf p) (hv : ∀ j, 0 ≤ t.valueOf j)
    (hx : p.Feasible (p.decision t.valueOf)) (h₁ : p.Feasible x₁) (h₂ : p.Feasible x₂)
    (ha : 0 < a) (hb : 0 ≤ b) (hmean : Mean a b x₁ x₂ (p.decision t.valueOf)) :
    x₁ = p.decision t.valueOf := by
  have hstart : (start p 0).HasRowsOf p := (SameEquations.refl _).hasRowsOf hp (canonical_start hp)
  have hrelaxed := fun {y} (hy : p.Feasible y) => (Problem.feasible_iff_relaxed.mp hy).1
  obtain ⟨hsolves, hnonneg⟩ := Problem.solves_extend 0 hp (hrelaxed h₁)
  have hvalues : p.extend x₁ = t.valueOf := by
    refine h.eq_of_rows (h.rows_hold hstart hsolves.1) h.solves_valueOf.1 fun j hj => ?_
    -- Off the basis the mean is zero, and neither of its parts is negative.
    have hzero := hmean.extend_eq hx h₁ h₂ j
    rw [← h.valueOf_eq_extend hp hv, h.valueOf_eq_zero j hj] at hzero
    have hother := mul_nonneg hb ((Problem.solves_extend 0 hp (hrelaxed h₂)).2 j)
    have hle : a * p.extend x₁ j ≤ 0 := by linarith
    rw [h.valueOf_eq_zero j hj]
    exact le_antisymm (nonpos_of_mul_nonpos_right hle ha) (hnonneg j)
  rw [← hvalues, Problem.decision_extend h₁.length]

end TableauSimplex
