import TableauSimplex.Proofs.Infeasible

/-!
# Right sides of any sign

A right side may be negative. Then the run starts from a negative basic value, and nothing in it
makes up for that: the ratio test only keeps nonnegative values nonnegative, and the last check only
looks for artificial variables that are too great. So a solution that is reported as optimal may
miss a constraint. It is feasible up to the tolerance exactly when no variable of its tableau is
below minus the tolerance, the artificial variables of at-least constraints apart
(`isFeasible_iff_of_optimal`).
-/

namespace TableauSimplex

variable {p : Problem Rat} {s : Settings Rat} {withGraph : Bool} {sol : Solution Rat}
  {t : Tableau Rat} {tol : Rat} {i : Nat}

/-- A column whose variable has to be nonnegative for the point to be feasible. An artificial
variable that is negative raises the left side, which an at-least constraint allows. -/
def Problem.Restricts (p : Problem Rat) (j : Nat) : Prop :=
  j < p.numVars ∨ ∃ i < p.constraints.length, (p.auxiliaryAt i).slack = some j ∨
    (p.auxiliaryAt i).surplus = some j ∨
      ((p.constraintAt i).sign = .equal ∧ (p.auxiliaryAt i).artificial = some j)

/-- A basic point satisfies a constraint up to a tolerance when no auxiliary variable that counts is
below minus the tolerance. -/
theorem Tableau.HasRowsOf.isSatisfied_iff (hp : p.Regular) (h : t.HasRowsOf p) (hf : 0 ≤ tol)
    {penalty z : Rat} (hs : (start p penalty).Solves t.valueOf z) (hi : i < p.constraints.length)
    (hle : valueAt t.valueOf (p.auxiliaryAt i).artificial ≤ tol) :
    (p.constraintAt i).isSatisfied (p.decision t.valueOf) tol = true ↔
      -tol ≤ valueAt t.valueOf (p.auxiliaryAt i).slack ∧
        -tol ≤ valueAt t.valueOf (p.auxiliaryAt i).surplus ∧
        ((p.constraintAt i).sign = .equal →
          -tol ≤ valueAt t.valueOf (p.auxiliaryAt i).artificial) := by
  have hr := ((Problem.start_solves_iff hp).mp hs).1 i hi
  have h0 : -tol ≤ 0 := neg_nonpos.mpr hf
  rw [Constraint.isSatisfied_iff]
  rcases Problem.auxiliaryAt_cases hi with ⟨hsign, c, hc⟩ | ⟨hsign, e, a, hne, hc⟩ | ⟨hsign, a, hc⟩
  · rw [hc] at hr ⊢
    simp only [hsign, valueAt_none, valueAt_some] at hr ⊢
    refine ⟨fun h => ⟨by linarith, h0, nofun⟩, fun h => by linarith [h.1]⟩
  · -- Only one of the surplus and the artificial variable is basic.
    have hbasic := h.surplus_or_artificial hp hi hne (by rw [hc]) (by rw [hc])
    rw [hc] at hr hle ⊢
    simp only [hsign, valueAt_none, valueAt_some] at hr hle ⊢
    rcases hbasic with hv | hv
    · rw [hv]
      exact ⟨fun _ => ⟨h0, h0, nofun⟩, fun _ => by linarith⟩
    · exact ⟨fun h => ⟨h0, by linarith, nofun⟩, fun h => by linarith [h.2.1]⟩
  · rw [hc] at hr hle ⊢
    simp only [hsign, valueAt_none, valueAt_some] at hr hle ⊢
    exact ⟨fun h => ⟨h0, h0, fun _ => by linarith [h.2]⟩,
      fun h => ⟨by linarith, by linarith [h.2.2 trivial]⟩⟩

private theorem le_valueAt_iff {v : Nat → Rat} (h0 : -tol ≤ 0) (col : Option Nat) :
    -tol ≤ valueAt v col ↔ ∀ j, col = some j → -tol ≤ v j := by
  cases col with
  | none => simpa using h0
  | some c => simp

/-- **When a reported optimum is feasible** up to the tolerance, whatever the signs of the right
sides are. -/
theorem isFeasible_iff_of_optimal (hp : p.Regular) (hf : 0 ≤ s.feasibility)
    (h : solve p s withGraph = .ok sol) (ho : sol.status = .optimal) :
    ∃ t, sol.ReadOff p s t ∧ (p.isFeasible sol.values s.feasibility = true ↔
      ∀ j, p.Restricts j → -s.feasibility ≤ t.valueOf j) := by
  obtain ⟨t, hread⟩ := solve_spec hp h
  obtain ⟨-, ha⟩ := hread.leftWith_optimal ho
  have hle : ∀ i < p.constraints.length,
      valueAt t.valueOf (p.auxiliaryAt i).artificial ≤ s.feasibility := fun i hi =>
    hread.sameEquations.artificial_le hread.canonical hf ha hi
  have h0 : -s.feasibility ≤ 0 := neg_nonpos.mpr hf
  have hrows := hread.sameEquations.hasRowsOf hp hread.canonical
  refine ⟨t, hread, ?_⟩
  rw [Problem.isFeasible_iff, Problem.forall_mem_constraints, hread.values_eq]
  constructor
  · rintro ⟨hvalues, hconstraints⟩ j (hj | ⟨i, hi, hj⟩)
    · exact hvalues _ (List.mem_map.mpr ⟨j, List.mem_range.mpr hj, rfl⟩)
    · obtain ⟨hslack, hsurplus, hartificial⟩ :=
        (hrows.isSatisfied_iff hp hf (hread.solves hp) hi (hle i hi)).mp (hconstraints i hi)
      rcases hj with hj | hj | ⟨hsign, hj⟩
      · exact (le_valueAt_iff h0 _).mp hslack j hj
      · exact (le_valueAt_iff h0 _).mp hsurplus j hj
      · exact (le_valueAt_iff h0 _).mp (hartificial hsign) j hj
  · intro hall
    refine ⟨fun a ha => ?_, fun i hi => ?_⟩
    · obtain ⟨j, hj, rfl⟩ := List.mem_map.mp ha
      exact hall j (.inl (List.mem_range.mp hj))
    · refine (hrows.isSatisfied_iff hp hf (hread.solves hp) hi (hle i hi)).mpr
        ⟨?_, ?_, fun hs => ?_⟩
      · exact (le_valueAt_iff h0 _).mpr fun j hj => hall j (.inr ⟨i, hi, .inl hj⟩)
      · exact (le_valueAt_iff h0 _).mpr fun j hj => hall j (.inr ⟨i, hi, .inr (.inl hj)⟩)
      · exact (le_valueAt_iff h0 _).mpr fun j hj => hall j (.inr ⟨i, hi, .inr (.inr ⟨hs, hj⟩)⟩)

/-- A variable that may not be above minus one. -/
def belowZero : Problem Rat where
  sense := .minimize
  names := [.text "x"]
  objective := [1]
  constraints := [⟨[1], .atMost, -1⟩]

/-- The default settings report an optimum where there is no feasible point. -/
example : (solve belowZero {} false).toOption.map (fun sol =>
    (sol.status, sol.values, belowZero.isFeasible sol.values ({} : Settings Rat).feasibility)) =
      some (.optimal, [0], false) := by decide +kernel

end TableauSimplex
