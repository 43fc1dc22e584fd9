import TableauSimplex.Proofs.Tableau.Canonical

/-!
# Directions

A direction is a change of a point that keeps what the constraint rows say, at some rate of the
objective value (`Drift`). Solutions moved along a direction stay solutions (`Solves.add_smul`).

Every column of a canonical tableau gives a direction, its ray: the column grows by one, and the
basic columns make up for it (`Canonical.drift_ray`). Where the column has no positive entry the ray
decreases nothing (`Canonical.ray_nonneg`).
-/

namespace TableauSimplex

namespace Tableau

variable {t t' : Tableau Rat} {v d : Nat → Rat} {z z' c : Rat} {col k : Nat}

/-- A direction in which the objective value grows at a rate. -/
structure Drift (t : Tableau Rat) (d : Nat → Rat) (c : Rat) : Prop where
  rows : ∀ r ∈ t.rows, r.lhs d = 0
  objective : c + t.objective.lhs d = 0

/-- **Solutions moved along a direction stay solutions.** -/
theorem Solves.add_smul (h : t.Solves v z) (hd : t.Drift d c) (a : Rat) :
    t.Solves (v + a • d) (z + a * c) := by
  refine ⟨fun r hr => ?_, ?_⟩
  · rw [Row.lhs_add_smul, hd.rows r hr, mul_zero, add_zero]
    exact h.1 r hr
  · rw [Row.lhs_add_smul, ← h.2]
    linear_combination a * hd.objective

/-- Two solutions differ by a direction. -/
theorem Solves.drift (h : t.Solves v z) (h' : t.Solves (v + d) z') : t.Drift d (z' - z) := by
  have hl : ∀ r : Row Rat, r.lhs (v + d) = r.lhs v + r.lhs d := fun r => by
    have ha := r.lhs_add_smul v d 1
    rwa [one_smul, one_mul] at ha
  refine ⟨fun r hr => ?_, ?_⟩
  · have hr' := h'.1 r hr
    rw [hl, h.1 r hr] at hr'
    exact add_eq_left.mp hr'
  · have ho := h'.2
    rw [hl, ← h.2] at ho
    linear_combination ho

/-- Tableaux of the same equations have the same directions. -/
theorem SameEquations.drift (h : SameEquations t t') (ht : t.WellShaped) (ht' : t'.Canonical)
    (hd : t'.Drift d c) : t.Drift d c := by
  have hs := ht'.solves_valueOf
  have hs' := hs.add_smul hd 1
  rw [one_smul, one_mul] at hs'
  have hd' := ((h.solves_iff ht ht'.toWellShaped).mp hs).drift
    ((h.solves_iff ht ht'.toWellShaped).mp hs')
  rwa [add_sub_cancel_left] at hd'

/-! ## Rays -/

/-- The direction in which a column grows by one and the basic columns make up for it. -/
def ray (t : Tableau Rat) (col : Nat) : Nat → Rat :=
  Pi.single col 1 -
    ∑ i ∈ Finset.range t.rows.length, Pi.single (t.basicCol i) ((t.rowAt i).vec col)

theorem lhs_single {r : Row Rat} {j : Nat} (hj : j < r.width) (a : Rat) :
    r.lhs (Pi.single j a) = r.vec j * a := by
  rw [Row.lhs, Finset.sum_eq_single_of_mem j (Finset.mem_range.mpr hj), Pi.single_eq_same]
  intro k _ hk
  rw [Pi.single_eq_of_ne hk, mul_zero]

/-- The combination of the rows that the basic columns read. -/
private theorem lhs_sum_single (h : t.Canonical) (g : Nat → Rat) (hk : k ≤ t.rows.length) :
    (t.rowAt k).lhs (∑ i ∈ Finset.range t.rows.length, Pi.single (t.basicCol i) (g i)) =
      if k < t.rows.length then g k else 0 := by
  have hlin : ∀ (s : Finset Nat) (f : Nat → Nat → Rat),
      (t.rowAt k).lhs (∑ i ∈ s, f i) = ∑ i ∈ s, (t.rowAt k).lhs (f i) := by
    intro s f
    simp only [Row.lhs, Finset.sum_apply, Finset.mul_sum]
    exact Finset.sum_comm
  have hterm : ∀ i ∈ Finset.range t.rows.length,
      (t.rowAt k).lhs (Pi.single (t.basicCol i) (g i)) = if k = i then g i else 0 := fun i hi => by
    have him := Finset.mem_range.mp hi
    rw [lhs_single (by rw [h.width_rowAt]; exact h.basicCol_lt him), h.unit i him k hk]
    split <;> simp
  rw [hlin, Finset.sum_congr rfl hterm, Finset.sum_ite_eq]
  simp

/-- **A ray is a direction.** The objective value grows by minus the reduced cost of its column. -/
theorem Canonical.drift_ray (h : t.Canonical) (hc : col < t.numColumns) :
    t.Drift (t.ray col) (-t.objective.vec col) where
  rows := by
    rw [forall_mem_rows]
    intro k hk
    rw [ray, Row.lhs_sub, lhs_single (by rwa [h.width_rowAt]), lhs_sum_single h _ (by omega),
      if_pos hk, mul_one, sub_self]
  objective := by
    have hs := lhs_sum_single h (fun i => (t.rowAt i).vec col) (Nat.le_refl _)
    rw [rowAt_length, if_neg (by omega)] at hs
    rw [ray, Row.lhs_sub, lhs_single hc, hs, mul_one, sub_zero, neg_add_cancel]

theorem ray_nonneg (hcol : ∀ i < t.rows.length, (t.rowAt i).vec col ≤ 0) (j : Nat) :
    0 ≤ t.ray col j := by
  rw [ray, Pi.sub_apply, Finset.sum_apply, sub_nonneg]
  have h1 : ∑ i ∈ Finset.range t.rows.length,
      (Pi.single (t.basicCol i) ((t.rowAt i).vec col) : Nat → Rat) j ≤ 0 :=
    Finset.sum_nonpos fun i hi => by
      by_cases hj : j = t.basicCol i
      · subst hj
        rw [Pi.single_eq_same]
        exact hcol i (Finset.mem_range.mp hi)
      · rw [Pi.single_eq_of_ne hj]
  have h2 : 0 ≤ (Pi.single col 1 : Nat → Rat) j := by
    by_cases hj : j = col
    · subst hj
      rw [Pi.single_eq_same]
      exact zero_le_one
    · rw [Pi.single_eq_of_ne hj]
  exact le_trans h1 h2

/-- Off the basis a ray moves its own column alone. -/
theorem ray_of_nonbasic {j : Nat} (hj : ∀ i < t.rows.length, t.basicCol i ≠ j) :
    t.ray col j = (Pi.single col 1 : Nat → Rat) j := by
  rw [ray, Pi.sub_apply, Finset.sum_apply, Finset.sum_eq_zero, sub_zero]
  intro i hi
  rw [Pi.single_eq_of_ne (Ne.symm (hj i (Finset.mem_range.mp hi)))]

/-- In its own row a basic column makes up for the growth of another one. -/
theorem Canonical.ray_basicCol (h : t.Canonical) (hcol : ∀ i < t.rows.length, t.basicCol i ≠ col)
    (hk : k < t.rows.length) : t.ray col (t.basicCol k) = -(t.rowAt k).vec col := by
  rw [ray, Pi.sub_apply, Finset.sum_apply, Pi.single_eq_of_ne (hcol k hk),
    Finset.sum_eq_single_of_mem k (Finset.mem_range.mpr hk), Pi.single_eq_same, zero_sub]
  intro i hi hik
  exact Pi.single_eq_of_ne (fun he => hik (h.basicCol_inj hk (Finset.mem_range.mp hi) he).symm) _

end Tableau

end TableauSimplex
