import TableauSimplex.Proofs.Inequality
import TableauSimplex.Proofs.Infeasible
import TableauSimplex.Proofs.Optimum
import TableauSimplex.Proofs.Unbounded

/-!
# Exact penalties

A penalty is exact for a program when no relaxed point gains more than some feasible point after the
penalty on what it misses (`Problem.ExactPenalty`). Above such a penalty the verdicts of a solve are
right: a program that is reported as infeasible has no feasible point (`ExactPenalty.not_feasible`),
and over the feasible points of one that is reported as unbounded the objective grows without bound
(`ExactPenalty.exists_better`). For any penalty the gain of relaxed points after the penalty is
bounded where an optimum is reported, and not where the program is reported as unbounded
(`exists_gainsAtMost`, `not_gainsAtMost`).

An exact penalty need not know the right sides. Programs that differ in their constraints alone
share one as long as the coefficients of these come from a finite set (`exists_exactPenalty`). So
every program has a threshold above which its verdicts are right (`solve_verdict`).
-/

namespace TableauSimplex

/-! ## The inequalities of a program -/

/-- The inequalities that a constraint stands for. -/
def Constraint.inequalities (c : Constraint Rat) : List Inequality :=
  match c.sign with
  | .atMost => [((c.coefficients.getD · 0), c.rhs)]
  | .atLeast => [-((c.coefficients.getD · 0), c.rhs)]
  | .equal => [((c.coefficients.getD · 0), c.rhs), -((c.coefficients.getD · 0), c.rhs)]

namespace Problem

variable {p : Problem Rat} {c : Constraint Rat} {q : Inequality} {v u : Nat → Rat}
  {coefficients : Set (List Rat)}

/-- The inequalities that a program stands for. -/
def inequalities (p : Problem Rat) : Set Inequality :=
  {q | ∃ c ∈ p.constraints, q ∈ c.inequalities} ∪
    {q | ∃ j < p.numVars, (-Pi.single j 1, 0) = q}

theorem finite_inequalities (p : Problem Rat) : p.inequalities.Finite := by
  refine Set.Finite.union ?_ ?_
  · have hunion : {q | ∃ c ∈ p.constraints, q ∈ c.inequalities} =
        ⋃ c ∈ {c | c ∈ p.constraints}, {q | q ∈ c.inequalities} := by
      ext q
      simp
    rw [hunion]
    exact (List.finite_toSet _).biUnion fun c _ => List.finite_toSet _
  · exact (Set.finite_Iio p.numVars).image _

/-- The coefficients of inequalities that programs with the given coefficients stand for. -/
def inequalityCoefficients (n : Nat) (coefficients : Set (List Rat)) : Set (Nat → Rat) :=
  (fun a j => a.getD j 0) '' coefficients ∪ (fun a j => -a.getD j 0) '' coefficients ∪
    {a | ∃ j < n, -Pi.single j 1 = a}

theorem finite_inequalityCoefficients (n : Nat) (h : coefficients.Finite) :
    (inequalityCoefficients n coefficients).Finite :=
  ((h.image _).union (h.image _)).union ((Set.finite_Iio n).image _)

theorem coefficients_inequalities (hc : ∀ c ∈ p.constraints, c.coefficients ∈ coefficients)
    (hq : q ∈ p.inequalities) : q.1 ∈ inequalityCoefficients p.numVars coefficients := by
  rcases hq with ⟨c, hm, hq⟩ | ⟨j, hj, rfl⟩
  · have h1 : (fun j => c.coefficients.getD j 0) ∈
        inequalityCoefficients p.numVars coefficients := .inl (.inl ⟨_, hc c hm, rfl⟩)
    have h2 : (fun j => -c.coefficients.getD j 0) ∈
        inequalityCoefficients p.numVars coefficients := .inl (.inr ⟨_, hc c hm, rfl⟩)
    unfold Constraint.inequalities at hq
    cases hs : c.sign <;> simp only [hs, List.mem_cons, List.not_mem_nil, or_false] at hq
    · exact hq ▸ h1
    · exact hq ▸ h2
    · rcases hq with rfl | rfl
      · exact h1
      · exact h2
  · exact .inr ⟨j, hj, rfl⟩

/-! ## Excesses at a point -/

private theorem excess_constraint (hc : c.coefficients.length = p.numVars) (v : Nat → Rat) :
    Inequality.excess p.numVars v ((c.coefficients.getD · 0), c.rhs) =
      c.lhs (p.decision v) - c.rhs := by
  rw [Inequality.excess_apply, Constraint.lhs, decision, Scalar.dot_range hc]

private theorem excess_nonneg {j : Nat} (hj : j < p.numVars) (v : Nat → Rat) :
    Inequality.excess p.numVars v (-Pi.single j 1, 0) = -v j := by
  rw [Inequality.excess_apply, Finset.sum_eq_single_of_mem j (Finset.mem_range.mpr hj)]
  · simp
  · intro k _ hk
    simp [hk]

private theorem holds_iff_inequalities (hc : c.coefficients.length = p.numVars) :
    c.Holds (p.decision v) ↔ ∀ q ∈ c.inequalities, Inequality.excess p.numVars v q ≤ 0 := by
  have he := excess_constraint hc v
  unfold Constraint.Holds Constraint.inequalities
  cases hs : c.sign <;>
    simp only [List.forall_mem_cons, List.not_mem_nil, IsEmpty.forall_iff, implies_true, and_true,
      map_neg, he, Left.neg_nonpos_iff, sub_nonneg, sub_nonpos]
  exact ⟨fun h => ⟨h.le, h.ge⟩, fun h => le_antisymm h.1 h.2⟩

private theorem excess_le_shortfall (hc : c.coefficients.length = p.numVars)
    (hr : c.Relaxed (p.decision v)) (hq : q ∈ c.inequalities) :
    Inequality.excess p.numVars v q ≤ c.shortfall (p.decision v) := by
  have he := excess_constraint hc v
  unfold Constraint.Relaxed at hr
  unfold Constraint.inequalities at hq
  unfold Constraint.shortfall
  cases hs : c.sign <;>
    simp only [hs, List.mem_cons, List.not_mem_nil, or_false] at hq hr ⊢
  · rw [hq, he]
    linarith
  · rw [hq, map_neg, he, neg_sub]
    exact le_max_right _ _
  · rcases hq with rfl | rfl
    · rw [he]
      exact (sub_nonpos.mpr hr).trans (le_max_left _ _)
    · rw [map_neg, he, neg_sub]
      exact le_max_right _ _

theorem forall_mem_decision {P : Rat → Prop} :
    (∀ a ∈ p.decision v, P a) ↔ ∀ j < p.numVars, P (v j) := by
  simp [decision]

/-- **A point is feasible when it satisfies all inequalities.** -/
theorem feasible_iff_inequalities (hp : p.Regular) :
    p.Feasible (p.decision v) ↔ ∀ q ∈ p.inequalities, Inequality.excess p.numVars v q ≤ 0 := by
  constructor
  · rintro h q (⟨c, hc, hq⟩ | ⟨j, hj, rfl⟩)
    · exact (holds_iff_inequalities (hp.constraints c hc)).mp (h.holds c hc) q hq
    · rw [excess_nonneg hj, neg_nonpos]
      exact forall_mem_decision.mp h.nonneg j hj
  · intro h
    refine ⟨length_decision, forall_mem_decision.mpr fun j hj => ?_, fun c hc =>
      (holds_iff_inequalities (hp.constraints c hc)).mpr fun q hq => h q (.inl ⟨c, hc, hq⟩)⟩
    have hle := h _ (.inr ⟨j, hj, rfl⟩)
    rwa [excess_nonneg hj, neg_nonpos] at hle

theorem shortfall_le_of_mem (hc : c ∈ p.constraints) (x : List Rat) :
    c.shortfall x ≤ p.shortfall x := by
  obtain ⟨i, hi, rfl⟩ := List.getElem_of_mem hc
  rw [← constraintAt_of_lt hi, shortfall]
  exact Finset.single_le_sum (f := fun i => (p.constraintAt i).shortfall x)
    (fun k _ => (p.constraintAt k).shortfall_nonneg x) (Finset.mem_range.mpr hi)

/-- **A relaxed point nearly satisfies all inequalities.** -/
theorem excess_le_of_relaxed (hp : p.Regular) (hr : p.Relaxed (p.decision v))
    (hq : q ∈ p.inequalities) :
    Inequality.excess p.numVars v q ≤ p.shortfall (p.decision v) := by
  rcases hq with ⟨c, hc, hq⟩ | ⟨j, hj, rfl⟩
  · exact (excess_le_shortfall (hp.constraints c hc) (hr.relaxed c hc) hq).trans
      (shortfall_le_of_mem hc _)
  · rw [excess_nonneg hj]
    exact (neg_nonpos.mpr (forall_mem_decision.mp hr.nonneg j hj)).trans shortfall_nonneg

/-- Near points have near gains. -/
theorem gain_le_add (hp : p.Regular) {δ : Rat} (hδ : 0 ≤ δ)
    (h : ∀ j < p.numVars, |v j - u j| ≤ δ) :
    p.gain (p.decision u) ≤ p.gain (p.decision v) +
      (∑ j ∈ Finset.range p.numVars, |(Tableau.maximized p).getD j 0|) * δ := by
  have hgain : ∀ w, p.gain (p.decision w) = Inequality.excess p.numVars w
      (((Tableau.maximized p).getD · 0), 0) := fun w => by
    rw [gain_eq, decision, Scalar.dot_range (length_maximized hp), Inequality.excess_apply,
      sub_zero]
  rw [hgain, hgain]
  exact Inequality.excess_le_add (le_refl _) hδ fun j hj => (abs_sub_comm _ _).trans_le (h j hj)

/-! ## Exact penalties -/

/-- A penalty is exact when it outweighs what a relaxed point gains by what it misses: if there are
feasible points, one of them gains no less than the relaxed point does after the penalty. -/
def ExactPenalty (p : Problem Rat) (penalty : Rat) : Prop :=
  ∀ u, p.Relaxed u → (∃ x, p.Feasible x) →
    ∃ x, p.Feasible x ∧ p.gain u - penalty * p.shortfall u ≤ p.gain x

/-- The program with other constraints. -/
def withConstraints (p : Problem Rat) (constraints : List (Constraint Rat)) : Problem Rat :=
  { p with constraints }

/-- **Programs share an exact penalty** when they differ in their constraints alone and the
coefficients of these come from a finite set. -/
theorem exists_exactPenalty (p : Problem Rat) (h : coefficients.Finite) :
    ∃ penalty : Rat, 0 ≤ penalty ∧ ∀ constraints, (p.withConstraints constraints).Regular →
      (∀ c ∈ constraints, c.coefficients ∈ coefficients) →
        (p.withConstraints constraints).ExactPenalty penalty := by
  obtain ⟨H, hH, hnear⟩ :=
    Inequality.exists_boundsDistance p.numVars (finite_inequalityCoefficients p.numVars h)
  refine ⟨(∑ j ∈ Finset.range p.numVars, |(Tableau.maximized p).getD j 0|) * H,
    mul_nonneg (Finset.sum_nonneg fun _ _ => abs_nonneg _) hH, fun constraints hq hc u hu hx => ?_⟩
  let q := p.withConstraints constraints
  obtain ⟨x₀, hx₀⟩ := hx
  -- Points of the program as points of the system.
  have hu' : q.decision (q.extend u) = u := decision_extend hu.length
  have hx₀' : q.decision (q.extend x₀) = x₀ := decision_extend hx₀.length
  rw [← hx₀', feasible_iff_inequalities hq] at hx₀
  rw [← hu'] at hu ⊢
  obtain ⟨v, hv, hvu⟩ := hnear q.inequalities q.finite_inequalities
    (fun r hr => coefficients_inequalities (p := q) hc hr) ⟨_, hx₀⟩ (q.extend u)
    (q.shortfall (q.decision (q.extend u))) shortfall_nonneg
    fun r hr => excess_le_of_relaxed hq hu hr
  refine ⟨q.decision v, (feasible_iff_inequalities hq).mpr hv, ?_⟩
  have hle := gain_le_add hq (mul_nonneg hH shortfall_nonneg) hvu
  rw [sub_le_iff_le_add, mul_assoc]
  exact hle

end Problem

/-! ## Verdicts -/

/-- No relaxed point gains more than a bound after the penalty. -/
def Problem.GainsAtMost (p : Problem Rat) (penalty bound : Rat) : Prop :=
  ∀ u, p.Relaxed u → p.gain u - penalty * p.shortfall u ≤ bound

section

variable {p : Problem Rat} {s : Settings Rat} {withGraph : Bool} {sol : Solution Rat} {K : Rat}
  (hp : p.Regular) (hb : ∀ c ∈ p.constraints, 0 ≤ c.rhs) (hs : s.Exact)
  (h : solve p s withGraph = .ok sol)

include hp hs h

/-- The gain after the penalty is bounded when an optimum is reported. -/
theorem exists_gainsAtMost (ho : sol.status = .optimal) :
    ∃ bound, p.GainsAtMost s.penalty bound := by
  obtain ⟨t, hread⟩ := solve_spec hp h
  obtain ⟨hnone, -⟩ := hread.leftWith_optimal ho
  rw [hs.entering] at hnone
  exact ⟨_, fun u hu => hread.penalized_gain_le hp (Tableau.nonneg_of_enteringColumn hnone) hu⟩

include hb

/-- It is not bounded when the program is reported as unbounded. -/
theorem not_gainsAtMost (hm : 0 ≤ s.penalty) (hstatus : sol.status = .unbounded) (bound : Rat) :
    ¬p.GainsAtMost s.penalty bound := by
  intro hle
  obtain ⟨t, col, ht⟩ := exists_growsAlong hp hb hs h hstatus
  obtain ⟨a, ha, hlt⟩ := exists_lt_add_mul t.objective.rhs bound ht.rate_pos
  have hn : ∀ j, 0 ≤ (t.valueOf + a • t.ray col) j := fun j =>
    add_nonneg (ht.valueOf_nonneg j) (mul_nonneg ha (ht.ray_nonneg j))
  have hsolves := ht.solves.add_smul ht.drift a
  have hgain := Problem.le_gain_sub_penalty hp hm hn hsolves
  exact absurd (hgain.trans (hle _ (Problem.relaxed_of_solves hp hn hsolves).1)) (not_le.mpr hlt)

variable (hK : p.ExactPenalty K)

include hK

/-- **A program that is reported as infeasible has no feasible point** when the penalty is above an
exact one. -/
theorem Problem.ExactPenalty.not_feasible (hlt : K < s.penalty) (hstatus : sol.status = .infeasible)
    (x : List Rat) : ¬p.Feasible x := by
  intro hx
  obtain ⟨t, hread⟩ := solve_spec hp h
  have hleft := hread.leftWith
  rw [hstatus] at hleft
  obtain ⟨hnone, ha⟩ := hleft
  rw [hs.entering] at hnone
  rw [hs.feasibility] at ha
  have hv := hread.valueOf_nonneg hs.ratio hb
  have hpos := hread.shortfall_pos hp hv ha
  have hrelaxed := (Problem.relaxed_of_solves hp hv (hread.solves hp)).1
  rw [← hread.values_eq] at hrelaxed
  -- The values gain more than the feasible point that makes up for them.
  obtain ⟨y, hy, hgain⟩ := hK sol.values hrelaxed ⟨x, hx⟩
  have hle := hread.gain_le hp (Tableau.nonneg_of_enteringColumn hnone) hy
  rw [hread.rhs_eq hp hv] at hle
  have hmul := mul_lt_mul_of_pos_right hlt hpos
  linarith

/-- **The objective of a program that is reported as unbounded grows without bound** over its
feasible points, if there are any, when the penalty is no less than an exact one. -/
theorem Problem.ExactPenalty.exists_better (hK0 : 0 ≤ K) (hle : K ≤ s.penalty)
    (hstatus : sol.status = .unbounded) (hx : ∃ x, p.Feasible x) (bound : Rat) :
    ∃ x, p.Feasible x ∧ p.sense.Better (p.objectiveAt x) bound := by
  have hnot := not_gainsAtMost hp hb hs h (hK0.trans hle) hstatus (p.sense.orient bound)
  rw [Problem.GainsAtMost] at hnot
  push Not at hnot
  obtain ⟨u, hu, hlt⟩ := hnot
  obtain ⟨y, hy, hyg⟩ := hK u hu hx
  refine ⟨y, hy, ?_⟩
  have hmul := mul_le_mul_of_nonneg_right hle (p.shortfall_nonneg (x := u))
  rw [Sense.better_iff]
  show p.sense.orient bound < p.gain y
  linarith

end

variable {p : Problem Rat}

/-- **Verdicts above a threshold** that belongs to the program alone. A program that is reported as
infeasible has no feasible point. One that is reported as unbounded has an artificial variable left
in the last tableau of its run and no feasible point, or else it has feasible points and its
objective grows without bound over them. -/
theorem solve_verdict (hp : p.Regular) (hb : ∀ c ∈ p.constraints, 0 ≤ c.rhs) :
    ∃ threshold : Rat, ∀ (s : Settings Rat) (withGraph : Bool) (sol : Solution Rat), s.Exact →
      threshold ≤ s.penalty → solve p s withGraph = .ok sol →
      (sol.status = .infeasible → ∀ x, ¬p.Feasible x) ∧
        (sol.status = .unbounded → ∃ first last stop, sol.FromRun p s first last stop ∧
          ((last.tableau.hasPositiveArtificial 0 = true ∧ ∀ x, ¬p.Feasible x) ∨
            ((∃ x, p.Feasible x) ∧
              ∀ bound, ∃ x, p.Feasible x ∧ p.sense.Better (p.objectiveAt x) bound))) := by
  obtain ⟨K, hK0, hK⟩ := p.exists_exactPenalty ((List.finite_toSet p.constraints).image
    Constraint.coefficients)
  have hexact : p.ExactPenalty K :=
    hK p.constraints hp fun c hc => Set.mem_image_of_mem _ hc
  refine ⟨K + 1, fun s withGraph sol hs hle h => ⟨fun hstatus => ?_, fun hstatus => ?_⟩⟩
  · exact hexact.not_feasible hp hb hs h (by linarith) hstatus
  · obtain ⟨first, last, stop, hrun⟩ := exists_fromRun h
    refine ⟨first, last, stop, hrun, ?_⟩
    by_cases hx : ∃ x, p.Feasible x
    · exact .inr ⟨hx, hexact.exists_better hp hb hs h hK0 (by linarith) hstatus hx⟩
    · push Not at hx
      have hread := hrun.readOff hp
      exact .inl ⟨hread.hasPositiveArtificial hp (hread.valueOf_nonneg hs.ratio hb) hx, hx⟩

/-- The penalty is eliminated from the objective row of this program without a trace in its
columns. -/
private theorem ofProblem_emptyRow (penalty : Rat) :
    Tableau.ofProblem emptyRow penalty = .ok {
      rows := [⟨[0, 1], 1⟩]
      objective := ⟨[-1, 0], -penalty⟩
      headers := [.text "x", .text "a1"]
      basis := [1]
      slackCols := [none]
      surplusCols := [none]
      artificialCols := [some 1]
      numDecision := 1
      minimize := false
      penalty } := by
  have h : (⟨[-1, 0], -penalty⟩ : Row Rat) =
      ⟨[-1 - penalty * 0, penalty - penalty * 1], 0 - penalty * 1⟩ := by simp
  rw [h]
  with_unfolding_all rfl

/-- Whatever the penalty, a program without feasible points is reported as unbounded. Above its
threshold that comes with an artificial variable in the last tableau. -/
theorem solve_verdict_emptyRow :
    ∃ penalty sol, 0 < penalty ∧ solve emptyRow (.exact penalty) false = .ok sol ∧
      sol.status = .unbounded ∧
      ∃ first last stop, sol.FromRun emptyRow (.exact penalty) first last stop ∧
        last.tableau.hasPositiveArtificial 0 = true ∧ ∀ x, ¬emptyRow.Feasible x := by
  obtain ⟨threshold, hrun⟩ := solve_verdict (p := emptyRow) (by decide +kernel) (by decide +kernel)
  let penalty := max threshold 1
  obtain ⟨sol, h, hstatus⟩ := exists_solution emptyRow (.exact penalty) false .unbounded (by
    rw [solve, solveLogged]
    show Option.map _ (Except.toOption (_ <$> (Tableau.ofProblem emptyRow penalty >>= _))) = _
    rw [ofProblem_emptyRow]
    rfl)
  obtain ⟨first, last, stop, hfrom, hverdict⟩ :=
    (hrun _ false sol (Settings.exact_exact penalty) (le_max_left _ _) h).2 hstatus
  refine ⟨penalty, sol, lt_max_of_lt_right one_pos, h, hstatus, first, last, stop, hfrom, ?_⟩
  rcases hverdict with hleft | ⟨⟨x, hx⟩, -⟩
  · exact hleft
  · have hrow : Scalar.dot [0] x = 1 := hx.holds _ (List.mem_singleton.mpr rfl)
    rw [Scalar.dot_eq] at hrow
    simp at hrow

end TableauSimplex
