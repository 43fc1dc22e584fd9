import TableauSimplex.Proofs.NextVertex
import TableauSimplex.Proofs.Optimum
import TableauSimplex.Proofs.Tableau.BasicPoint

/-!
# Other optima

Other optima are taken to show in nonbasic columns whose reduced cost is within a tolerance. Where
there is none, every nonbasic column costs something, and the point reported is the only one that is
as good (`solve_unique`).

Where there are some, the basic point after a pivot on the first of them is reported beside the
optimum (`solve_alternate`). It is another point when the pivot goes some way, and it loses what
that way costs. A pivot that goes nowhere gives the same point, a long way makes much of a small
cost, and an artificial variable that becomes positive makes the point miss a constraint
(`alternate_not_optimum`).
-/

namespace TableauSimplex

variable {p : Problem Rat} {s : Settings Rat} {withGraph : Bool} {sol : Solution Rat}
  {t : Tableau Rat} {row col : Nat} {v : Nat → Rat} {z : Rat} {x : List Rat}

/-! ## One optimum -/

/-- **The basic point is the only best one** where every nonbasic column costs something. -/
theorem Tableau.Canonical.eq_valueOf_of_solves (h : t.Canonical)
    (hcost : ∀ j < t.numColumns, (∀ i < t.rows.length, t.basicCol i ≠ j) → 0 < t.objective.vec j)
    (hv : ∀ j, 0 ≤ v j) (hout : ∀ j, t.numColumns ≤ j → v j = 0) (hs : t.Solves v z)
    (hz : t.objective.rhs ≤ z) : v = t.valueOf := by
  have hterms : ∀ j ∈ Finset.range t.numColumns, 0 ≤ t.objective.vec j * v j := fun j hj => by
    by_cases hb : ∃ i < t.rows.length, t.basicCol i = j
    · obtain ⟨i, hi, rfl⟩ := hb
      rw [h.objective_basicCol hi, zero_mul]
    · push Not at hb
      exact mul_nonneg (hcost j (Finset.mem_range.mp hj) hb).le (hv j)
  have hlhs : t.objective.lhs v = 0 := le_antisymm (by linarith [hs.2]) (Finset.sum_nonneg hterms)
  have hzero := (Finset.sum_eq_zero_iff_of_nonneg hterms).mp hlhs
  refine h.eq_of_rows hs.1 h.solves_valueOf.1 fun j hj => ?_
  rw [h.valueOf_eq_zero j hj]
  rcases Nat.lt_or_ge j t.numColumns with hlt | hge
  · exact (mul_eq_zero.mp (hzero j (Finset.mem_range.mpr hlt))).resolve_left (hcost j hlt hj).ne'
  · exact hout j hge

/-- Without a candidate for another optimum every nonbasic column costs something. -/
theorem Tableau.WellShaped.objective_pos (h : t.WellShaped)
    (hnone : t.enteringColumn s.entering = .ok none) (hzero : t.zeroCostColumns s.reducedCost = [])
    (htol : s.entering < s.reducedCost) {j : Nat} (hj : j < t.numColumns)
    (hb : ∀ i < t.rows.length, t.basicCol i ≠ j) : 0 < t.objective.vec j := by
  have he := t.enteringColumn_spec s.entering
  rw [hnone] at he
  have hle : s.reducedCost ≤ |t.objective.vec j| := not_lt.mp fun hlt => by
    have hm := h.mem_zeroCostColumns.mpr ⟨hj, hb, hlt⟩
    rw [hzero] at hm
    cases hm
  by_contra hneg
  rw [abs_of_nonpos (not_lt.mp hneg)] at hle
  linarith [he j hj]

/-- **The only optimum.** Where no sign of other optima is reported, no feasible point but the one
reported is as good as the value reported, whatever the penalty and the signs of the right sides. -/
theorem solve_unique (hp : p.Regular) (htol : s.entering < s.reducedCost)
    (h : solve p s withGraph = .ok sol) (ho : sol.status = .optimal)
    (hm : sol.multiple = false) :
    ∀ x, p.Feasible x → ¬p.sense.Better sol.objectiveValue (p.objectiveAt x) → x = sol.values := by
  obtain ⟨t, -, hread, hother⟩ := solve_lastTableau hp h
  have hzero : t.zeroCostColumns s.reducedCost = [] :=
    Tableau.zeroCostColumns_eq_nil (hm ▸ hother ho)
  obtain ⟨hnone, -⟩ := hread.leftWith_optimal ho
  intro x hx hbest
  obtain ⟨hr, hshort⟩ := Problem.feasible_iff_relaxed.mp hx
  obtain ⟨hs, hn⟩ := Problem.solves_extend s.penalty hp hr
  rw [hshort, mul_zero, sub_zero, ← hread.solves_iff hp] at hs
  rw [Sense.not_better_iff, hread.objectiveValue_eq, Sense.orient_orient] at hbest
  have heq : p.extend x = t.valueOf :=
    hread.canonical.eq_valueOf_of_solves
      (fun j hj hb => hread.canonical.objective_pos hnone hzero htol hj hb) hn
      (fun j hj => Problem.extend_eq_zero (hread.sameEquations.numColumns_eq hp ▸ hj)) hs hbest
  rw [hread.values_eq, ← heq, Problem.decision_extend hx.length]

/-- With default settings the optimum of a program with a row of each sign is the only one. -/
theorem solve_unique_mixedRows :
    ∃ sol, solve mixedRows {} false = .ok sol ∧ sol.status = .optimal ∧ sol.multiple = false ∧
      ∀ x, mixedRows.Feasible x → sol.objectiveValue ≤ mixedRows.objectiveAt x → x = sol.values := by
  obtain ⟨sol, h, ho, hm⟩ := exists_of_toOption_any (solve mixedRows {} false)
    (fun sol => sol.status = .optimal ∧ sol.multiple = false) (by decide +kernel)
  exact ⟨sol, h, ho, hm, fun x hx hle =>
    solve_unique (by decide +kernel) (by decide +kernel) h ho hm x hx (not_lt.mpr hle)⟩

/-! ## The vertex beside the optimum -/

namespace Tableau

/-- Where no basic variable is artificial, none is positive. -/
theorem hasPositiveArtificial_of_basis {tol : Rat} (h : ∀ c ∈ t.basis, t.isArtificial c = false) :
    t.hasPositiveArtificial tol = false := by
  rw [hasPositiveArtificial, List.any_eq_false]
  rintro ⟨c, r⟩ hm
  simp only [h c (List.of_mem_zip hm).1, Bool.false_and, Bool.false_eq_true, not_false_eq_true]

/-- A pivot brings nothing but its own column into the basis. -/
theorem hasPositiveArtificial_pivot {tol : Rat} (hcol : t.isArtificial col = false)
    (h : ∀ c ∈ t.basis, t.isArtificial c = false) :
    (t.pivot row col).hasPositiveArtificial tol = false := by
  refine hasPositiveArtificial_of_basis fun c hc => ?_
  rcases List.mem_or_eq_of_mem_set hc with hc | rfl
  · exact h c hc
  · exact hcol

end Tableau

namespace Solution.ReadOff

variable (h : sol.ReadOff p s t) (hp : p.Regular) (hb : ∀ c ∈ p.constraints, 0 ≤ c.rhs)
  (hs : s.Exact) (hpivot : t.NextPivot s.reducedCost s.ratio row col)

include h hb hs hpivot

theorem stepLength_nonneg : 0 ≤ t.stepLength row col := by
  obtain ⟨hr, hpos⟩ := hpivot.row_spec h.canonical.toWellShaped
  rw [hs.ratio] at hpos
  exact div_nonneg (Tableau.forall_mem_rows.mp (h.rhs_nonneg hs.ratio hb) row hr) hpos.le

/-- The pivot leads to a tableau of the same program, and its basic values are nonnegative too. -/
theorem nextVertex : (t.pivot row col).Canonical ∧
    Tableau.SameEquations (Tableau.start p s.penalty) (t.pivot row col) ∧
      ∀ j, 0 ≤ (t.pivot row col).valueOf j := by
  have hw := h.canonical.toWellShaped
  obtain ⟨hc, -, -⟩ := hpivot.column_spec hw
  obtain ⟨hr, hpos⟩ := hpivot.row_spec hw
  have hleaves := hpivot.leaves
  rw [hs.ratio] at hpos hleaves
  have hnext := h.canonical.pivot hr hc hpos.ne'
  exact ⟨hnext, h.sameEquations.trans (hw.sameEquations_pivot hr hc hpos.ne'),
    hnext.valueOf_nonneg (hw.rhs_pivot_nonneg hc hleaves (h.rhs_nonneg hs.ratio hb))⟩

include hp

/-- The pivot leads to another point exactly when it goes some way. -/
theorem nextValues_ne_iff : (t.pivot row col).values ≠ sol.values ↔ 0 < t.stepLength row col := by
  have hw := h.canonical.toWellShaped
  obtain ⟨hc, hnonbasic, -⟩ := hpivot.column_spec hw
  obtain ⟨hr, hpos⟩ := hpivot.row_spec hw
  rw [hs.ratio] at hpos
  obtain ⟨hnext, hsame, hv⟩ := h.nextVertex hb hs hpivot
  rw [(h.stepLength_nonneg hb hs hpivot).lt_iff_ne',
    ← h.canonical.valueOf_pivot_ne_iff hr hc hpos.ne' hnonbasic, hsame.values, h.values_eq]
  exact not_congr ((hsame.hasRowsOf hp hnext).decision_inj hp hv
    (h.sameEquations.hasRowsOf hp h.canonical) (h.valueOf_nonneg hs.ratio hb))

/-- **A pivot costs the reduced cost for each unit of its way.** -/
theorem abs_nextValues_sub (ha : (t.pivot row col).hasPositiveArtificial 0 = false) :
    |p.objectiveAt (t.pivot row col).values - sol.objectiveValue| =
      |t.objective.vec col| * t.stepLength row col := by
  have hw := h.canonical.toWellShaped
  obtain ⟨hnext, hsame, hv⟩ := h.nextVertex hb hs hpivot
  have hgain := hsame.gain_eq_rhs hp hnext hv ha
  rw [← hsame.values,
    hw.rhs_objective_pivot (hpivot.row_spec hw).1 (hpivot.column_spec hw).1] at hgain
  rw [← p.sense.abs_orient_sub, h.objectiveValue_eq, Sense.orient_orient]
  show |p.gain _ - _| = _
  rw [hgain, sub_sub_cancel_left, abs_neg, abs_mul,
    abs_of_nonneg (h.stepLength_nonneg hb hs hpivot)]

end Solution.ReadOff

/-- **The point reported beside an optimum** comes with the sign of other optima. It is the basic
point after a pivot on the first column whose reduced cost is within the tolerance. It may fall
short of at-least constraints and of equalities, and it misses nothing else. It is another point
exactly when the pivot goes some way. Where no artificial variable is positive after the pivot it is
feasible, and its value differs by the reduced cost for each unit of the way. That is so where
neither the column nor a basic one belongs to an artificial variable. -/
theorem solve_alternate (hp : p.Regular) (hb : ∀ c ∈ p.constraints, 0 ≤ c.rhs) (hs : s.Exact)
    (h : solve p s withGraph = .ok sol) (ho : sol.status = .optimal)
    (hx : sol.alternate = some x) :
    sol.multiple = true ∧ ∃ t row col, lastTableau p s = .ok t ∧
      t.NextPivot s.reducedCost s.ratio row col ∧ x = (t.pivot row col).values ∧
      0 ≤ t.objective.vec col ∧ t.objective.vec col < s.reducedCost ∧
      p.Relaxed x ∧ (x ≠ sol.values ↔ 0 < t.stepLength row col) ∧
      ((t.pivot row col).hasPositiveArtificial 0 = false → p.Feasible x ∧
        |p.objectiveAt x - sol.objectiveValue| =
          t.objective.vec col * t.stepLength row col) ∧
      (t.isArtificial col = false → (∀ c ∈ t.basis, t.isArtificial c = false) →
        (t.pivot row col).hasPositiveArtificial 0 = false) := by
  obtain ⟨t, ht, hread, hother⟩ := solve_lastTableau hp h
  have hw := hread.canonical.toWellShaped
  obtain ⟨hnone, -⟩ := hread.leftWith_optimal ho
  rw [hs.entering] at hnone
  obtain ⟨hm, row, col, hpivot, rfl⟩ := hw.exists_nextPivot hs.ratio.ge (hx ▸ hother ho)
  obtain ⟨hc, -, hcost⟩ := hpivot.column_spec hw
  have hcost0 := Tableau.nonneg_of_enteringColumn hnone col hc
  obtain ⟨hnext, hsame, hv⟩ := hread.nextVertex hb hs hpivot
  refine ⟨hm, t, row, col, ht, hpivot, rfl, hcost0, lt_of_abs_lt hcost, ?_,
    hread.nextValues_ne_iff hp hb hs hpivot, fun ha => ⟨?_, ?_⟩,
    Tableau.hasPositiveArtificial_pivot⟩
  · rw [hsame.values]
    exact (Problem.relaxed_of_solves hp hv (hsame.solves_start hp hnext)).1
  · rw [hsame.values]
    exact hsame.feasible hp hnext hv ha
  · rw [hread.abs_nextValues_sub hp hb hs hpivot ha, abs_of_nonneg hcost0]

/-- Exact comparison, with a tolerance for reduced costs. -/
def Settings.exactBesideCosts : Settings Rat := { entering := 0, ratio := 0, feasibility := 0 }

theorem Settings.exact_exactBesideCosts : exactBesideCosts.Exact := ⟨rfl, rfl, rfl⟩

/-- The optima are an edge between two vertices. -/
def boundedEdge : Problem Rat where
  sense := .maximize
  names := [.text "x", .text "y"]
  objective := [1, 1]
  constraints := [⟨[1, 1], .atMost, 2⟩, ⟨[1, 0], .atMost, 1⟩]

/-- The other end of the edge is reported beside the optimum. -/
theorem solve_alternate_boundedEdge :
    ∃ sol x, solve boundedEdge .exactBesideCosts false = .ok sol ∧ sol.status = .optimal ∧
      sol.alternate = some x ∧ x ≠ sol.values ∧ boundedEdge.Feasible x ∧
      boundedEdge.objectiveAt x = sol.objectiveValue := by
  obtain ⟨sol, h, ho, hx⟩ := exists_of_toOption_any (solve boundedEdge .exactBesideCosts false)
    (fun sol => sol.status = .optimal ∧ sol.alternate = some [0, 2]) (by decide +kernel)
  obtain ⟨t, ht, henters, hleaves, hcost, hstep, hcol, hbasis⟩ :=
    exists_of_toOption_any (lastTableau boundedEdge .exactBesideCosts)
      (fun t => (t.zeroCostColumns 1e-5).head? = some 3 ∧ t.leavingRow 3 0 = some 1 ∧
        t.objective.vec 3 = 0 ∧ 0 < t.stepLength 1 3 ∧ t.isArtificial 3 = false ∧
        ∀ c ∈ t.basis, t.isArtificial c = false) (by decide +kernel)
  obtain ⟨-, t', row, col, ht', hpivot, -, -, -, -, hother, hfeasible, hnone⟩ :=
    solve_alternate (by decide +kernel) (by decide +kernel) Settings.exact_exactBesideCosts h ho hx
  cases ht.symm.trans ht'
  cases henters.symm.trans hpivot.enters
  cases hleaves.symm.trans hpivot.leaves
  obtain ⟨hf, hgap⟩ := hfeasible (hnone hcol hbasis)
  rw [hcost, zero_mul, abs_eq_zero, sub_eq_zero] at hgap
  exact ⟨sol, [0, 2], h, ho, hx, hother.mpr hstep, hf, hgap⟩

/-- A statement about every point that is reported beside an optimum, with exact comparison. -/
def EveryAlternate (C : Problem Rat → Settings Rat → Solution Rat → List Rat → Prop) : Prop :=
  ∀ (p : Problem Rat) (s : Settings Rat) (withGraph : Bool) (sol : Solution Rat) (x : List Rat),
    p.Regular → (∀ c ∈ p.constraints, 0 ≤ c.rhs) → s.Exact → 0 < s.reducedCost →
    solve p s withGraph = .ok sol → sol.status = .optimal → sol.multiple = true →
    sol.alternate = some x → C p s sol x

private theorem not_everyAlternate
    {C : Problem Rat → Settings Rat → Solution Rat → List Rat → Prop} (p : Problem Rat)
    (x : List Rat) [∀ sol, Decidable (C p .exactBesideCosts sol x)] (hp : p.Regular)
    (hb : ∀ c ∈ p.constraints, 0 ≤ c.rhs)
    (h : (solve p .exactBesideCosts false).toOption.any (fun sol => sol.status = .optimal ∧
      sol.multiple = true ∧ sol.alternate = some x ∧ ¬C p .exactBesideCosts sol x) = true) :
    ¬EveryAlternate C := by
  intro hall
  obtain ⟨sol, h, ho, hm, hx, hC⟩ := exists_of_toOption_any _ _ h
  exact hC (hall p _ false sol x hp hb Settings.exact_exactBesideCosts (by decide +kernel) h ho hm
    hx)

/-- The only feasible point is zero. -/
def pointAtZero : Problem Rat where
  sense := .maximize
  names := [.text "x"]
  objective := [0]
  constraints := [⟨[1], .atMost, 0⟩]

/-- The second vertex is worse by little for each unit, but it is a long way off. -/
def longEdge : Problem Rat where
  sense := .maximize
  names := [.text "x", .text "y"]
  objective := [1, 99999999e-8]
  constraints := [⟨[1, 1], .atMost, 1000000⟩]

/-- One unit that costs little less than the default penalty. -/
def dearUnit : Problem Rat where
  sense := .minimize
  names := [.text "x"]
  objective := [99999999999e-6]
  constraints := [⟨[1], .equal, 1⟩]

/-- The point reported beside an optimum may be the same point, it may miss a constraint, and its
value may differ by more than the tolerance. -/
theorem alternate_not_optimum :
    (¬EveryAlternate fun _ _ sol x => x ≠ sol.values) ∧
      (¬EveryAlternate fun p _ _ x => p.Feasible x) ∧
      ¬EveryAlternate fun p s sol x => |p.objectiveAt x - sol.objectiveValue| ≤ s.reducedCost :=
  ⟨not_everyAlternate pointAtZero [0] (by decide +kernel) (by decide +kernel) (by decide +kernel),
    not_everyAlternate dearUnit [0] (by decide +kernel) (by decide +kernel) (by decide +kernel),
    not_everyAlternate longEdge [0, 1000000] (by decide +kernel) (by decide +kernel)
      (by decide +kernel)⟩

end TableauSimplex
