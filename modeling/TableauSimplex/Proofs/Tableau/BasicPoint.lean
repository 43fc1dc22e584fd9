import TableauSimplex.Proofs.Tableau.Basis
import TableauSimplex.Proofs.Tableau.Solutions

/-!
# Basic points

The basic values of a tableau of a program satisfy its constraints together with the auxiliary
variables (`HasRowsOf.lhs_add_eq`). The surplus and the artificial variable of one constraint are
not both basic (`HasRowsOf.surplus_or_artificial`), so that a basic point without negative values is
what its decision variables leave for the auxiliary ones (`HasRowsOf.valueOf_eq_extend`). In
particular the artificial variables are the shortfalls.
-/

namespace TableauSimplex

namespace Tableau

variable {p : Problem Rat} {t t' : Tableau Rat} {i : Nat}

/-- The columns of the surplus and of the artificial variable of one constraint are negatives of
each other. -/
theorem HasRowsOf.surplus_add_artificial (hp : p.Regular) (h : t.HasRowsOf p)
    (hi : i < p.constraints.length) {e a : Nat} (he : (p.auxiliaryAt i).surplus = some e)
    (ha : (p.auxiliaryAt i).artificial = some a) {w : Nat → Rat} (hw : w ∈ t.rowSpace) :
    w e + w a = 0 := by
  let both : (Nat → Rat) →ₗ[Rat] Rat :=
    (LinearMap.proj e : (Nat → Rat) →ₗ[Rat] Rat) + LinearMap.proj a
  have hrows : ∀ r ∈ (start p 0).rows, both r.vec = 0 := by
    rw [forall_mem_rows, length_rows_start]
    intro k hk
    rw [rowAt_start hk]
    show (p.rowOf k).vec e + (p.rowOf k).vec a = 0
    have hme := Auxiliary.mem_columns_of_surplus he
    by_cases hki : k = i
    · subst hki
      rw [Problem.vec_rowOf_column hp hi hi hme, ((Problem.coefficient_auxiliaryAt hi).2.1 he).1,
        Problem.vec_rowOf_artificial hp hi ha, neg_add_cancel]
    · rw [Problem.vec_rowOf_other hp hk hi hki hme,
        Problem.vec_rowOf_other hp hk hi hki (Auxiliary.mem_columns_of_artificial ha), add_zero]
  rw [h.rowSpace] at hw
  exact map_eq_zero hrows hw

/-- The surplus and the artificial variable of one constraint are not both basic. -/
theorem HasRowsOf.surplus_or_artificial (hp : p.Regular) (h : t.HasRowsOf p)
    (hi : i < p.constraints.length) {e a : Nat} (hne : e ≠ a)
    (he : (p.auxiliaryAt i).surplus = some e) (ha : (p.auxiliaryAt i).artificial = some a) :
    t.valueOf e = 0 ∨ t.valueOf a = 0 := by
  rcases h.toWellShaped.valueOf_cases e with ⟨k, hk, hke, -⟩ | ⟨-, hv⟩
  · rcases h.toWellShaped.valueOf_cases a with ⟨l, hl, hla, -⟩ | ⟨-, hv⟩
    · have h1 := h.unit k hk k (Nat.le_of_lt hk)
      have h2 := h.unit l hl k (Nat.le_of_lt hk)
      have hkl : k ≠ l := fun hkl => hne (by rw [← hke, ← hla, hkl])
      have h3 := h.surplus_add_artificial hp hi he ha (vec_mem_rowSpace hk)
      rw [hke, if_pos rfl] at h1
      rw [hla, if_neg hkl] at h2
      rw [h1, h2, add_zero] at h3
      exact absurd h3 one_ne_zero
    · exact .inr hv
  · exact .inl hv

/-- A basic point satisfies the constraints together with their auxiliary variables. -/
theorem HasRowsOf.lhs_add_eq (hp : p.Regular) (h : t.HasRowsOf p) (hi : i < p.constraints.length) :
    (p.constraintAt i).lhs (p.decision t.valueOf) +
      (valueAt t.valueOf (p.auxiliaryAt i).slack - valueAt t.valueOf (p.auxiliaryAt i).surplus +
        valueAt t.valueOf (p.auxiliaryAt i).artificial) = (p.constraintAt i).rhs := by
  have hstart : (start p 0).HasRowsOf p :=
    (SameEquations.refl _).hasRowsOf hp (canonical_start hp)
  have hrows := hstart.rows_hold h h.solves_valueOf.1
  exact ((Problem.start_solves_iff hp).mp ⟨hrows, sub_add_cancel _ _⟩).1 i hi

/-- A column that belongs to no variable and to no constraint is not basic. -/
theorem HasRowsOf.basicCol_ne (hp : p.Regular) (h : t.HasRowsOf p) {j : Nat} (hj : p.numVars ≤ j)
    (hcol : ∀ i < p.constraints.length, j ∉ (p.auxiliaryAt i).columns) :
    ∀ k < t.rows.length, t.basicCol k ≠ j := by
  rintro k hk rfl
  obtain ⟨d, hd⟩ := Nat.exists_eq_add_of_le hj
  have hlt := h.basicCol_lt hk
  rw [h.numColumns] at hlt
  -- No row of the program reads the column, so no combination of them does.
  have hrows : ∀ r ∈ (start p 0).rows,
      (LinearMap.proj (t.basicCol k) : (Nat → Rat) →ₗ[Rat] Rat) r.vec = 0 := by
    rw [forall_mem_rows, length_rows_start]
    intro i hi
    rw [rowAt_start hi]
    show (p.rowOf i).vec (t.basicCol k) = 0
    rw [hd, Problem.vec_rowOf_auxiliary hp hi (by omega), ← hd]
    exact Auxiliary.coefficient_eq_zero (hcol i hi)
  have hw := vec_mem_rowSpace hk
  rw [h.rowSpace] at hw
  have h0 : (t.rowAt k).vec (t.basicCol k) = 0 := map_eq_zero hrows hw
  rw [h.unit k hk k hk.le, if_pos rfl] at h0
  exact one_ne_zero h0

namespace HasRowsOf

variable (hp : p.Regular) (h : t.HasRowsOf p) (hv : ∀ j, 0 ≤ t.valueOf j)

include hp h hv

/-- The auxiliary variables of a basic point are what its decision variables leave for them. -/
theorem valueAt_eq (hi : i < p.constraints.length) :
    valueAt t.valueOf (p.auxiliaryAt i).slack =
        (p.constraintAt i).slack (p.decision t.valueOf) ∧
      valueAt t.valueOf (p.auxiliaryAt i).surplus =
        (p.constraintAt i).surplus (p.decision t.valueOf) ∧
      valueAt t.valueOf (p.auxiliaryAt i).artificial =
        (p.constraintAt i).shortfall (p.decision t.valueOf) := by
  have hr := h.lhs_add_eq hp hi
  unfold Constraint.slack Constraint.surplus Constraint.shortfall
  rcases Problem.auxiliaryAt_cases hi with ⟨hs, c, ha⟩ | ⟨hs, e, a, hne, ha⟩ | ⟨hs, a, ha⟩
  · rw [ha] at hr ⊢
    simp only [hs, valueAt_none, valueAt_some] at hr ⊢
    exact ⟨by linarith, trivial, trivial⟩
  · have hbasic := h.surplus_or_artificial hp hi hne (by rw [ha]) (by rw [ha])
    rw [ha] at hr ⊢
    simp only [hs, valueAt_none, valueAt_some] at hr ⊢
    refine ⟨trivial, ?_⟩
    rcases hbasic with h0 | h0
    · rw [max_eq_left (by linarith [hv a]), max_eq_right (by linarith [hv a])]
      exact ⟨h0, by linarith⟩
    · rw [max_eq_right (by linarith [hv e]), max_eq_left (by linarith [hv e])]
      exact ⟨by linarith, h0⟩
  · rw [ha] at hr ⊢
    simp only [hs, valueAt_none, valueAt_some] at hr ⊢
    rw [max_eq_right (by linarith [hv a])]
    exact ⟨trivial, trivial, by linarith⟩

/-- **A basic point is determined by its decision variables.** -/
theorem valueOf_eq_extend : t.valueOf = p.extend (p.decision t.valueOf) := by
  funext j
  by_cases hj : j < p.numVars
  · rw [Problem.extend, if_pos hj, Problem.decision, List.getD_eq_getElem _ _ (by simpa using hj),
      List.getElem_map, List.getElem_range]
  by_cases hcol : ∃ i < p.constraints.length, j ∈ (p.auxiliaryAt i).columns
  · obtain ⟨i, hi, hm⟩ := hcol
    obtain ⟨hslack, hsurplus, hartificial⟩ := h.valueAt_eq hp hv hi
    obtain ⟨gslack, gsurplus, gartificial⟩ :=
      Problem.valueAt_extend (x := p.decision t.valueOf) hi
    simp only [Auxiliary.columns, List.mem_append, Option.mem_toList] at hm
    rcases hm with (hm | hm) | hm
    · rw [hm] at hslack gslack
      exact hslack.trans gslack.symm
    · rw [hm] at hsurplus gsurplus
      exact hsurplus.trans gsurplus.symm
    · rw [hm] at hartificial gartificial
      exact hartificial.trans gartificial.symm
  · push Not at hcol
    rw [h.valueOf_eq_zero j (h.basicCol_ne hp (not_lt.mp hj) hcol), Problem.extend, if_neg hj]
    exact (Finset.sum_eq_zero fun i hi =>
      Problem.fill_eq_zero (hcol i (Finset.mem_range.mp hi))).symm

/-- **In a basic point the artificial variables are the shortfalls.** -/
theorem artificialSum_eq : p.artificialSum t.valueOf = p.shortfall (p.decision t.valueOf) :=
  Finset.sum_congr rfl fun _ hi => (h.valueAt_eq hp hv (Finset.mem_range.mp hi)).2.2

/-- Basic points with the same decision variables are the same. -/
theorem decision_inj (h' : t'.HasRowsOf p) (hv' : ∀ j, 0 ≤ t'.valueOf j) :
    p.decision t.valueOf = p.decision t'.valueOf ↔ t.valueOf = t'.valueOf := by
  refine ⟨fun heq => ?_, congrArg _⟩
  rw [h.valueOf_eq_extend hp hv, heq, ← h'.valueOf_eq_extend hp hv']

end HasRowsOf

end Tableau

end TableauSimplex
