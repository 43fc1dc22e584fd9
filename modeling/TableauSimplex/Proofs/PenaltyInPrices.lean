import TableauSimplex.Proofs.Optimum
import TableauSimplex.Proofs.Prices
import TableauSimplex.Proofs.Tableau.Basis

/-!
# The penalty in the prices

The price of an equality is read off its artificial variable less the penalty. That takes out the
penalty of this one column. Prices are the multipliers that make the reduced costs of all basic
columns zero, so the penalty is still in them when an artificial variable is basic, at zero where a
row is redundant.

Multipliers are determined by the costs of the basic columns (`PricedBy.eqOn`). So the prices for
two penalties agree when no basic column carries the penalty, and only then
(`solve_prices_eq_iff`).
-/

namespace TableauSimplex

variable {p : Problem Rat} {s s' : Settings Rat} {withGraph withGraph' : Bool}
  {sol sol' : Solution Rat} {t t' : Tableau Rat} {penalty penalty' : Rat} {i : Nat}

namespace Tableau

/-! ## Multipliers -/

/-- **Multipliers are determined by the costs of the basic columns.** -/
theorem PricedBy.eqOn (hp : p.Regular) {y y' : Nat → Rat} (hy : t.PricedBy p penalty y)
    (hy' : t'.PricedBy p penalty' y') (h : t.HasRowsOf p) (h' : t'.Canonical)
    (hbasis : t.basicCols = t'.basicCols)
    (hcost : ∀ j ∈ t.basicCols, p.costVec penalty j = p.costVec penalty' j) :
    ∀ i < p.constraints.length, y i = y' i := by
  have hstart : (start p penalty).Canonical := canonical_start hp
  have hrows : ∀ z : Nat → Rat, ∑ i ∈ Finset.range p.constraints.length, z i • (p.rowOf i).vec =
      ∑ i ∈ Finset.range (start p penalty).rows.length, z i • ((start p penalty).rowAt i).vec :=
    fun z => by
      rw [length_rows_start]
      refine Finset.sum_congr rfl fun i hi => ?_
      rw [rowAt_start (Finset.mem_range.mp hi)]
  -- The difference of the combinations of rows is zero in the basic columns.
  have hsub : ∑ i ∈ Finset.range p.constraints.length, (y - y') i • (p.rowOf i).vec =
      (t.objective.vec - p.costVec penalty) - (t'.objective.vec - p.costVec penalty') := by
    rw [hy, hy', add_sub_cancel_left, add_sub_cancel_left, ← Finset.sum_sub_distrib]
    exact Finset.sum_congr rfl fun i _ => sub_smul _ _ _
  have hmem : ∑ i ∈ Finset.range p.constraints.length, (y - y') i • (p.rowOf i).vec ∈
      t.rowSpace := by
    rw [h.rowSpace]
    refine Submodule.sum_mem _ fun i hi => Submodule.smul_mem _ _ (Submodule.subset_span ?_)
    exact ⟨_, List.mem_map_of_mem (List.mem_range.mpr (Finset.mem_range.mp hi)), rfl⟩
  have hzero := h.eq_zero_of_mem_rowSpace hmem fun k hk => by
    have hk' : t.basicCol k ∈ t.basicCols :=
      Finset.mem_image_of_mem _ (Finset.mem_range.mpr hk)
    rw [hsub, Pi.sub_apply, Pi.sub_apply, Pi.sub_apply, h.objective_of_mem_basicCols hk',
      h'.objective_of_mem_basicCols (hbasis ▸ hk'), hcost _ hk', sub_self]
  intro i hi
  have hi' : i < (start p penalty).rows.length := by rwa [length_rows_start]
  have hd := hstart.sum_smul_apply (y - y') hi'
  rw [← hrows, hzero] at hd
  exact (sub_eq_zero.mp hd.symm)

/-- **The prices of two tableaux agree** only if their penalties do or no basic column belongs to an
artificial variable: such a column shows the penalty and the multiplier of its constraint. -/
theorem PricedBy.penalty_eq (hp : p.Regular) {y y' : Nat → Rat} (hy : t.PricedBy p penalty y)
    (hy' : t'.PricedBy p penalty' y') (h : t.Canonical) (h' : t'.Canonical)
    (hbasis : t.basicCols = t'.basicCols) (hi : i < p.constraints.length) (hyi : y i = y' i)
    {j : Nat} (hj : j ∈ t.basicCols) (ha : (p.auxiliaryAt i).artificial = some j) :
    penalty = penalty' := by
  have h0 := (hy.vec_auxiliary hp hi).2.2 ha
  have h0' := (hy'.vec_auxiliary hp hi).2.2 ha
  rw [h.objective_of_mem_basicCols hj] at h0
  rw [h'.objective_of_mem_basicCols (hbasis ▸ hj)] at h0'
  linarith

end Tableau

/-- **When prices for two penalties agree.** Where the two runs end with the same basic columns, the
prices are the same exactly when the penalties are or no basic column belongs to an artificial
variable. -/
theorem solve_prices_eq_iff (hp : p.Regular) (h : solve p s withGraph = .ok sol)
    (h' : solve p s' withGraph' = .ok sol') (ht : lastTableau p s = .ok t)
    (ht' : lastTableau p s' = .ok t') (hbasis : t.basicCols = t'.basicCols) :
    sol.shadowPrices = sol'.shadowPrices ↔
      s.penalty = s'.penalty ∨ ∀ c ∈ t.basis, t.isArtificial c = false := by
  have hread := readOff_of_lastTableau hp h ht
  have hread' := readOff_of_lastTableau hp h' ht'
  obtain ⟨y, hy⟩ := hread.sameEquations.exists_pricedBy hp
  obtain ⟨y', hy'⟩ := hread'.sameEquations.exists_pricedBy hp
  have hprices : sol.shadowPrices = sol'.shadowPrices ↔ ∀ i < p.constraints.length, y i = y' i := by
    rw [hread.shadowPrices, hread'.shadowPrices, hy.shadowPrices_eq hp hread.sameEquations,
      hy'.shadowPrices_eq hp hread'.sameEquations, List.map_inj_left]
    simp only [List.mem_range]
    exact forall₂_congr fun i _ => p.sense.orient_inj
  rw [hprices, hread.canonical.forall_mem_basis]
  constructor
  · intro heq
    by_cases hnone : ∀ j ∈ t.basicCols, t.isArtificial (j : Int) = false
    · exact .inr hnone
    · push Not at hnone
      obtain ⟨j, hj, ha⟩ := hnone
      obtain ⟨i, hi, hij⟩ := hread.sameEquations.isArtificial_iff.mp (Bool.of_not_eq_false ha)
      exact .inl (hy.penalty_eq hp hy' hread.canonical hread'.canonical hbasis hi (heq i hi) hj hij)
  · intro hcase
    refine hy.eqOn hp hy' (hread.sameEquations.hasRowsOf hp hread.canonical) hread'.canonical hbasis
      fun j hj => ?_
    rcases hcase with hpenalty | hnone
    · rw [hpenalty]
    · have hj' : ∀ i < p.constraints.length, (p.auxiliaryAt i).artificial ≠ some j :=
        fun i hi ha => Bool.false_ne_true
          ((hnone j hj).symm.trans (hread.sameEquations.isArtificial_iff.mpr ⟨i, hi, ha⟩))
      rw [Problem.costVec_of_not_artificial hj', Problem.costVec_of_not_artificial hj']

/-- A row of each sign. No artificial variable stays basic, and the penalty leaves no trace in the
prices. -/
theorem solve_prices_eq_mixedRows :
    ∃ sol sol', solve mixedRows (.exact 1) false = .ok sol ∧ sol.status = .optimal ∧
      solve mixedRows (.exact 1e5) false = .ok sol' ∧ sol'.status = .optimal ∧
      sol.shadowPrices = sol'.shadowPrices := by
  obtain ⟨sol, h, ho⟩ := exists_solution mixedRows (.exact 1) false .optimal (by decide +kernel)
  obtain ⟨sol', h', ho'⟩ := exists_solution mixedRows (.exact 1e5) false .optimal
    (by decide +kernel)
  obtain ⟨t, ht, hbasis, hnone⟩ := exists_of_toOption_any (lastTableau mixedRows (.exact 1))
    (fun t => t.basicCols = {0, 1, 3} ∧ ∀ c ∈ t.basis, t.isArtificial c = false)
    (by decide +kernel)
  obtain ⟨t', ht', hbasis'⟩ := exists_of_toOption_any (lastTableau mixedRows (.exact 1e5))
    (fun t => t.basicCols = {0, 1, 3}) (by decide +kernel)
  have hiff := solve_prices_eq_iff (by decide +kernel) h h' ht ht' (hbasis.trans hbasis'.symm)
  exact ⟨sol, sol', h, ho, h', ho', hiff.mpr (.inr hnone)⟩

/-- Two equal rows. One of them is redundant, and its artificial variable stays basic at zero. -/
def equalRows : Problem Rat where
  sense := .maximize
  names := [.text "x"]
  objective := [1]
  constraints := [⟨[1], .equal, 1⟩, ⟨[1], .equal, 1⟩]

/-- The prices are not the same for all penalties, also when both runs are reported as optimal and
end with the same basis. -/
theorem prices_not_free_of_penalty :
    ¬∀ (p : Problem Rat) (s s' : Settings Rat) (withGraph : Bool) (sol sol' : Solution Rat)
      (t t' : Tableau Rat), p.Regular → (∀ c ∈ p.constraints, 0 ≤ c.rhs) → s.Exact → s'.Exact →
      0 < s.penalty → 0 < s'.penalty → solve p s withGraph = .ok sol → sol.status = .optimal →
      solve p s' withGraph = .ok sol' → sol'.status = .optimal → lastTableau p s = .ok t →
      lastTableau p s' = .ok t' → t.basis = t'.basis → sol.shadowPrices = sol'.shadowPrices := by
  intro hfree
  obtain ⟨sol, h, ho⟩ := exists_solution equalRows (.exact 1) false .optimal (by decide +kernel)
  obtain ⟨sol', h', ho'⟩ := exists_solution equalRows (.exact 2) false .optimal (by decide +kernel)
  obtain ⟨t, ht, hbasis⟩ := exists_of_toOption_any (lastTableau equalRows (.exact 1))
    (fun t => t.basis = [0, 2]) (by decide +kernel)
  obtain ⟨t', ht', hbasis'⟩ := exists_of_toOption_any (lastTableau equalRows (.exact 2))
    (fun t => t.basis = [0, 2]) (by decide +kernel)
  have heq := hfree equalRows (.exact 1) (.exact 2) false sol sol' t t' (by decide +kernel)
    (by decide +kernel) (Settings.exact_exact 1) (Settings.exact_exact 2) (by decide +kernel)
    (by decide +kernel) h ho h' ho' ht ht' (hbasis.trans hbasis'.symm)
  have hprices : (solve equalRows (.exact 1) false).toOption.map (·.shadowPrices) ≠
      (solve equalRows (.exact 2) false).toOption.map (·.shadowPrices) := by decide +kernel
  rw [h, h'] at hprices
  exact hprices (congrArg some heq)

end TableauSimplex
