import TableauSimplex.Proofs.Solve
import TableauSimplex.Proofs.Tableau.BasicPoint

/-!
# Reported infeasibility

A run that ends with an artificial variable left is reported as infeasible. With a finite penalty
that verdict can be wrong (`infeasible_not_sound`): a point that misses a constraint may gain more
than the penalty takes away. What it does say holds for every penalty: the values miss a constraint,
and no feasible point gains more than they do after the penalty (`solve_infeasible`).

The values are basic, and a program has finitely many basic points. So there is a penalty from which
on the verdict is right.
-/

namespace TableauSimplex

variable {p : Problem Rat} {s : Settings Rat} {withGraph : Bool} {sol : Solution Rat}
  {t : Tableau Rat}

namespace Solution.ReadOff

variable (h : sol.ReadOff p s t)

include h

/-- The objective row holds the gain of the values after the penalty. -/
theorem rhs_eq (hp : p.Regular) (hv : ∀ j, 0 ≤ t.valueOf j) :
    t.objective.rhs = p.gain sol.values - s.penalty * p.shortfall sol.values := by
  have ht := h.sameEquations.hasRowsOf hp h.canonical
  rw [h.gain_values hp, ht.artificialSum_eq hp hv, ← h.values_eq, add_sub_cancel_right]

/-- An artificial variable that is left makes the values miss a constraint. -/
theorem shortfall_pos (hp : p.Regular) (hv : ∀ j, 0 ≤ t.valueOf j)
    (ha : t.hasPositiveArtificial 0 = true) : 0 < p.shortfall sol.values := by
  obtain ⟨i, hi, hpos⟩ :=
    (h.sameEquations.hasPositiveArtificial_iff h.canonical (le_refl 0)).mp ha
  have ht := h.sameEquations.hasRowsOf hp h.canonical
  rw [h.values_eq, ← ht.artificialSum_eq hp hv]
  exact Finset.sum_pos' (fun k _ => Problem.valueAt_nonneg hv _) ⟨i, Finset.mem_range.mpr hi, hpos⟩

end Solution.ReadOff

/-- What holds of every run that is reported as infeasible, with the tableau that it ended at. -/
private theorem infeasible_run (hp : p.Regular) (hb : ∀ c ∈ p.constraints, 0 ≤ c.rhs)
    (hs : s.Exact) (h : solve p s withGraph = .ok sol) (hstatus : sol.status = .infeasible) :
    ∃ t : Tableau Rat, t.HasRowsOf p ∧ sol.values = p.decision t.valueOf ∧
      0 < p.shortfall sol.values ∧
      ∀ x, p.Feasible x →
        s.penalty * p.shortfall sol.values ≤ p.gain sol.values - p.gain x := by
  obtain ⟨t, hread⟩ := solve_spec hp h
  have hleft := hread.leftWith
  rw [hstatus] at hleft
  obtain ⟨hnone, ha⟩ := hleft
  rw [hs.entering] at hnone
  rw [hs.feasibility] at ha
  have hv := hread.valueOf_nonneg hs.ratio hb
  refine ⟨t, hread.sameEquations.hasRowsOf hp hread.canonical, hread.values_eq,
    hread.shortfall_pos hp hv ha, fun x hx => ?_⟩
  have hle := hread.gain_le hp (Tableau.nonneg_of_enteringColumn hnone) hx
  rw [hread.rhs_eq hp hv] at hle
  linarith

/-- By how much a basic point gains more than another point, for each unit that it falls short. -/
private def gainPerShortfall (p : Problem Rat) (x : List Rat) (t : Tableau Rat) : Rat :=
  (p.gain (p.decision t.valueOf) - p.gain x) / p.shortfall (p.decision t.valueOf)

/-- **Reported infeasibility.** The values reported miss a constraint, and a feasible point, if
there is one, gains less than they do by at least the penalty for that. From a threshold on that
belongs to the program alone, the verdict is right. -/
theorem solve_infeasible (hp : p.Regular) (hb : ∀ c ∈ p.constraints, 0 ≤ c.rhs) :
    ∃ threshold : Rat, ∀ (s : Settings Rat) (withGraph : Bool) (sol : Solution Rat), s.Exact →
      solve p s withGraph = .ok sol → sol.status = .infeasible →
      0 < p.shortfall sol.values ∧
        (∀ x, p.Feasible x →
          s.penalty * p.shortfall sol.values ≤ p.gain sol.values - p.gain x) ∧
        (threshold ≤ s.penalty → ∀ x, ¬p.Feasible x) := by
  by_cases hfeasible : ∃ x, p.Feasible x
  · obtain ⟨x₀, hx₀⟩ := hfeasible
    obtain ⟨bound, hbound⟩ := Tableau.exists_bound p (gainPerShortfall p x₀)
      fun t t' ht ht' hcols => by rw [gainPerShortfall, gainPerShortfall, ht.valueOf_eq ht' hcols]
    refine ⟨bound + 1, fun s withGraph sol hs h hstatus => ?_⟩
    obtain ⟨t, ht, hvalues, hpos, hbest⟩ := infeasible_run hp hb hs h hstatus
    refine ⟨hpos, hbest, fun hthreshold => ?_⟩
    have hle := (le_div_iff₀ hpos).mpr (hbest x₀ hx₀)
    have hub := hbound t ht
    rw [gainPerShortfall, ← hvalues] at hub
    linarith
  · push Not at hfeasible
    refine ⟨0, fun s withGraph sol hs h hstatus => ?_⟩
    obtain ⟨t, -, -, hpos, hbest⟩ := infeasible_run hp hb hs h hstatus
    exact ⟨hpos, hbest, fun _ => hfeasible⟩

/-- One variable that has to be at least one and costs more than the default penalty. -/
def costlyUnit : Problem Rat where
  sense := .minimize
  names := [.text "x"]
  objective := [200000]
  constraints := [⟨[1], .atLeast, 1⟩]

/-- A unit is cheaper to miss than to buy. -/
theorem solve_infeasible_costlyUnit :
    ∃ sol, solve costlyUnit (.exact 100000) false = .ok sol ∧ sol.status = .infeasible ∧
      costlyUnit.Feasible [1] ∧ 0 < costlyUnit.shortfall sol.values ∧
      100000 * costlyUnit.shortfall sol.values ≤
        costlyUnit.gain sol.values - costlyUnit.gain [1] := by
  have hfeasible : costlyUnit.Feasible [1] := by decide +kernel
  obtain ⟨sol, h, hstatus⟩ := exists_solution costlyUnit (.exact 100000) false .infeasible
    (by decide +kernel)
  obtain ⟨threshold, hrun⟩ := solve_infeasible (p := costlyUnit) (by decide +kernel)
    (by decide +kernel)
  obtain ⟨hpos, hgap, -⟩ := hrun _ _ _ (Settings.exact_exact 100000) h hstatus
  exact ⟨sol, h, hstatus, hfeasible, hpos, hgap [1] hfeasible⟩

/-- The verdict is not right for every positive penalty, and not for the default one. -/
theorem infeasible_not_sound :
    ¬∀ (p : Problem Rat) (s : Settings Rat) (withGraph : Bool) (sol : Solution Rat), p.Regular →
      (∀ c ∈ p.constraints, 0 ≤ c.rhs) → 0 < s.penalty → s.Exact →
      solve p s withGraph = .ok sol → sol.status = .infeasible → ∀ x, ¬p.Feasible x := by
  intro hsound
  obtain ⟨sol, h, hstatus⟩ := exists_solution costlyUnit (.exact 1e5) false .infeasible
    (by decide +kernel)
  exact hsound costlyUnit (.exact 1e5) false sol (by decide +kernel) (by decide +kernel)
    (by decide +kernel) (Settings.exact_exact 1e5) h hstatus [1] (by decide +kernel)

end TableauSimplex
