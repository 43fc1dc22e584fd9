import TableauSimplex.Proofs.Optimum

/-!
# Reported objective values

The objective value is read off the objective row. It is the objective at the values reported less
the penalty on every artificial variable that is left, however a run ended
(`objectiveAt_sub_objectiveValue`).

An optimum is reported as long as no artificial variable is above the feasibility tolerance. So the
objective value of an optimum may fall short of the objective at its values, by the penalty times
the tolerance for each constraint with an artificial variable (`objectiveValue_of_optimal`). Under
the default settings that is one for each such constraint, much more than the tolerance itself.
-/

namespace TableauSimplex

variable {p : Problem Rat} {s : Settings Rat} {withGraph : Bool} {sol : Solution Rat}
  {t : Tableau Rat} {tol : Rat} {v : Nat → Rat}

/-! ## The sum of artificial variables -/

private theorem sum_range_ite (signs : List Sign) (tol : Rat) :
    (∑ i ∈ Finset.range signs.length, if signs.getD i .atMost != .atMost then tol else 0) =
      Auxiliary.artificials signs * tol := by
  induction signs with
  | nil => simp [Auxiliary.artificials]
  | cons sign rest ih =>
    simp only [Auxiliary.artificials] at ih ⊢
    rw [List.length_cons, Finset.sum_range_succ', List.countP_cons]
    simp only [List.getD_cons_succ, List.getD_cons_zero, ih]
    split <;> push_cast <;> ring

/-- The artificial variables of constraints that have one, each up to a tolerance. -/
theorem Problem.artificialSum_le
    (h : ∀ i < p.constraints.length, valueAt v (p.auxiliaryAt i).artificial ≤ tol) :
    p.artificialSum v ≤ Auxiliary.artificials p.signs * tol := by
  rw [← sum_range_ite, length_signs]
  refine Finset.sum_le_sum fun i hi => ?_
  have hi' := Finset.mem_range.mp hi
  have hsign : p.signs.getD i .atMost = (p.constraintAt i).sign := by
    have hi'' : i < p.signs.length := length_signs ▸ hi'
    rw [constraintAt_of_lt hi', List.getD_eq_getElem _ _ hi'']
    exact List.getElem_map ..
  rw [hsign]
  rcases auxiliaryAt_cases hi' with ⟨hs, c, ha⟩ | ⟨hs, -⟩ | ⟨hs, -⟩
  · simp [hs, ha]
  · simpa [hs] using h i hi'
  · simpa [hs] using h i hi'

/-! ## What the value misses -/

/-- **The objective value** is that of the values less the penalty on the artificial variables. -/
theorem objectiveAt_sub_objectiveValue (hp : p.Regular) (h : solve p s withGraph = .ok sol)
    (ht : lastTableau p s = .ok t) :
    p.objectiveAt sol.values - sol.objectiveValue =
      p.sense.orient (s.penalty * p.artificialSum t.valueOf) := by
  have hread := readOff_of_lastTableau hp h ht
  have hgain := hread.gain_values hp
  rw [hread.objectiveValue_eq]
  unfold Problem.gain at hgain
  cases hs : p.sense <;> simp only [hs, Sense.orient] at hgain ⊢ <;> linarith

/-- **The objective value of an optimum** falls short of that of its values by no more than the
penalty times the tolerance for each constraint with an artificial variable, and with exact pivoting
rules it does not exceed it. -/
theorem objectiveValue_of_optimal (hp : p.Regular) (hm : 0 ≤ s.penalty) (hf : 0 ≤ s.feasibility)
    (h : solve p s withGraph = .ok sol) (ho : sol.status = .optimal) :
    p.gain sol.values - s.penalty * (Auxiliary.artificials p.signs * s.feasibility) ≤
        p.sense.orient sol.objectiveValue ∧
      (s.ratio = 0 → (∀ c ∈ p.constraints, 0 ≤ c.rhs) →
        p.sense.orient sol.objectiveValue ≤ p.gain sol.values) := by
  obtain ⟨t, hread⟩ := solve_spec hp h
  obtain ⟨-, ha⟩ := hread.leftWith_optimal ho
  have hgain := hread.gain_values hp
  have hsum := Problem.artificialSum_le fun i hi =>
    hread.sameEquations.artificial_le hread.canonical hf ha hi
  rw [hread.objectiveValue_eq, Sense.orient_orient]
  constructor
  · have hle := mul_le_mul_of_nonneg_left hsum hm
    linarith
  · intro hr hb
    have hnonneg : 0 ≤ p.artificialSum t.valueOf := Finset.sum_nonneg fun i _ =>
      Problem.valueAt_nonneg (hread.valueOf_nonneg hr hb) _
    have hle := mul_nonneg hm hnonneg
    linarith

/-- No point satisfies the only row, but zero misses it by half the default tolerance. -/
def nearlyEmptyRow : Problem Rat where
  sense := .minimize
  names := [.text "x"]
  objective := [1]
  constraints := [⟨[0], .equal, 5e-6⟩]

/-- Under the default settings zero is reported as optimal with the value one half, half of what may
be missed. -/
example : (solve nearlyEmptyRow {} false).toOption.map (fun sol =>
    (sol.status, sol.values, sol.objectiveValue, nearlyEmptyRow.objectiveAt sol.values)) =
      some (.optimal, [0], 1 / 2, 0) := by decide +kernel

end TableauSimplex
