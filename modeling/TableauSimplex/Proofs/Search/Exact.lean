import TableauSimplex.Proofs.Penalty
import TableauSimplex.Proofs.Search.Verdict

/-!
# Searches without tolerances

Without tolerances every relaxation of a search that is reported as optimal is solved to an optimum.
A node whose relaxation is reported otherwise is dropped. That loses integer points when the run of
the relaxation was cut short, or when it was judged infeasible with too small a penalty
(`Solution.Doubtful`). From a threshold on that belongs to the program alone the penalty is large
enough at every depth, since bounds on single variables have finitely many coefficients. A
relaxation that is reported as unbounded is that of the root (`Expands.eq_root_of_unbounded`), and
then the search finds nothing.

* `Search.exists_threshold`: why a node was dropped that has a feasible point.
* `searchInteger_optimal`, `searchInteger_none`: what an answer says, and what it says that there is
  none. The three ways to drop a node do lose integer points (`integer_optimal_not_sound`,
  `integer_none_not_sound`).
-/

namespace TableauSimplex

variable {p : Problem Rat} {s : Settings Rat} {node : Node Rat} {sol : Solution Rat}
  {x : List Rat}

/-! ## Halves of bounded nodes -/

/-- A half misses what the node misses and what its own bound misses. -/
theorem Node.shortfall_half {z : Rat} {b : VariableBound} :
    ((node.half p z b).program p).shortfall x =
      (node.program p).shortfall x + (b.constraint p.numVars).shortfall x := by
  have hlen : ((node.half p z b).program p).constraints.length = node.constraints.length + 1 :=
    List.length_append
  rw [Problem.shortfall, hlen, Finset.sum_range_succ]
  congr 1
  · refine Finset.sum_congr rfl fun i hi => ?_
    congr 1
    exact List.getD_append _ _ _ _ (Finset.mem_range.mp hi)
  · congr 1
    show (node.constraints ++ [b.constraint p.numVars]).getD node.constraints.length _ = _
    rw [List.getD_append_right _ _ _ _ (le_refl _), Nat.sub_self, List.getD_cons_zero]

/-- **A half gains no more after the penalty than the node does.** -/
theorem Node.gainsAtMost_half {z penalty bound : Rat} {b : VariableBound} (hm : 0 ≤ penalty)
    (h : (node.program p).GainsAtMost penalty bound) :
    ((node.half p z b).program p).GainsAtMost penalty bound := by
  intro u hu
  have hle := h u ⟨hu.length, hu.nonneg, fun c hc => hu.relaxed c (List.mem_append_left _ hc)⟩
  have hmul := mul_nonneg hm ((b.constraint p.numVars).shortfall_nonneg u)
  rw [Node.shortfall_half, mul_add]
  have hgain : ((node.half p z b).program p).gain u = (node.program p).gain u := rfl
  linarith

/-! ## Dropped nodes -/

/-- A solution says nothing for sure: its run was cut short, or it was found to be infeasible with a
penalty below a threshold. -/
def Solution.Doubtful (s : Settings Rat) (threshold : Rat) (sol : Solution Rat) : Prop :=
  sol.status = .nonConvergent ∨ (sol.status = .infeasible ∧ s.penalty < threshold)

theorem Solution.Doubtful.ne_optimal {threshold : Rat} (h : sol.Doubtful s threshold) :
    sol.status ≠ .optimal := by
  intro ho
  rcases h with h | ⟨h, -⟩ <;> rw [ho] at h <;> cases h

/-- The objective of a program passes every bound at feasible points. -/
def Problem.Unbounded (p : Problem Rat) : Prop :=
  ∀ bound, ∃ x, p.Feasible x ∧ p.sense.Better (p.objectiveAt x) bound

namespace Search

/-- A point lies in a node whose relaxation was expanded with a doubtful result. -/
def Doubts (p : Problem Rat) (s : Settings Rat) (threshold : Rat) (x : List Rat) : Prop :=
  ∃ node sol, Expands p s node sol ∧ sol.Doubtful s threshold ∧ (node.program p).Feasible x

section

variable {K : Rat} (hp : p.Regular) (hb : ∀ c ∈ p.constraints, 0 ≤ c.rhs) (hs : s.Exact)

include hp hb hs

/-- **Why a node was dropped that has a feasible point.** Its relaxation was doubtful, or the node
is the root and reported as unbounded. -/
theorem Expands.doubtful_or_root (he : Expands p s node sol)
    (hK : (node.program p).ExactPenalty K) (hx : (node.program p).Feasible x)
    (hstatus : sol.status ≠ .optimal) : sol.Doubtful s (K + 1) ∨ sol.status = .unbounded := by
  have hfits := he.fits hp hb hs.ratio hs.feasibility
  have hq := hfits.regular hp
  cases hsol : sol.status with
  | optimal => exact absurd hsol hstatus
  | nonConvergent => exact .inl (.inl hsol)
  | unbounded => exact .inr rfl
  | infeasible =>
    rcases lt_or_ge s.penalty (K + 1) with hlt | hle
    · exact .inl (.inr ⟨hsol, hlt⟩)
    · exact absurd hx (hK.not_feasible hq hfits.rhs_nonneg hs he.solves (by linarith) hsol x)
  | nodeLimit =>
    obtain ⟨t, hread⟩ := solve_spec hq he.solves
    have hleft := hread.leftWith
    rw [hsol] at hleft
    cases hleft

variable (hm : 0 ≤ s.penalty)

include hm

/-- **Only the root is reported as unbounded.** The parent of any other node was solved to an
optimum, so that its gains after the penalty are bounded. -/
theorem Expands.eq_root_of_unbounded (he : Expands p s node sol)
    (hstatus : sol.status = .unbounded) : node = ⟨p.constraints, none, 0⟩ := by
  have hbounded : node.bound = none ∨ ∃ bound, (node.program p).GainsAtMost s.penalty bound := by
    refine he.of_keptByHalves (P := fun node => node.bound = none ∨
      ∃ bound, (node.program p).GainsAtMost s.penalty bound) (.inl rfl) ?_
    intro node sol b _ he ho _
    have hq := (he.fits hp hb hs.ratio hs.feasibility).regular hp
    obtain ⟨bound, hbound⟩ := exists_gainsAtMost hq hs he.solves ho
    exact .inr ⟨bound, Node.gainsAtMost_half hm hbound⟩
  rcases hbounded with hroot | ⟨bound, hbound⟩
  · exact he.eq_root hroot
  · have hfits := he.fits hp hb hs.ratio hs.feasibility
    exact absurd hbound
      (not_gainsAtMost (hfits.regular hp) hfits.rhs_nonneg hs he.solves hm hstatus bound)

end

/-- The penalty that is large enough at every node. -/
theorem exists_threshold (hp : p.Regular) (hb : ∀ c ∈ p.constraints, 0 ≤ c.rhs) :
    ∃ threshold : Rat, ∀ (s : Settings Rat) (x : List Rat), s.Exact → 0 ≤ s.penalty →
      Drops p s x → Doubts p s threshold x ∨
        ∃ sol, Expands p s ⟨p.constraints, none, 0⟩ sol ∧ sol.status = .unbounded ∧
          (threshold ≤ s.penalty → p.Unbounded) := by
  obtain ⟨K, hK0, hK⟩ := p.exists_exactPenalty p.finite_nodeCoefficients
  refine ⟨K + 1, fun s x hs hm => ?_⟩
  rintro ⟨node, sol, he, hstatus, hx⟩
  have hfits := he.fits hp hb hs.ratio hs.feasibility
  have hexact := hK node.constraints (hfits.regular hp) hfits.coefficients
  rcases he.doubtful_or_root hp hb hs hexact hx hstatus with hdoubtful | hsol
  · exact .inl ⟨node, sol, he, hdoubtful, hx⟩
  · have hroot := he.eq_root_of_unbounded hp hb hs hm hsol
    subst hroot
    exact .inr ⟨sol, he, hsol, fun hle =>
      hexact.exists_better hp hb hs he.solves hK0 (by linarith) hsol ⟨x, hx⟩⟩

end Search

/-! ## Answers -/

/-- **An integer solution that is reported as optimal** is an integer point of the program. From a
threshold on that belongs to the program alone it is the best one, unless the run of a relaxation
was cut short: every better integer point lies in a node whose relaxation was doubtful. -/
theorem searchInteger_optimal (hp : p.Regular) (hb : ∀ c ∈ p.constraints, 0 ≤ c.rhs) :
    ∃ threshold : Rat, ∀ (s : Settings Rat) (best : Solution Rat), s.Exact → s.integrality = 0 →
      0 < s.penalty → (searchInteger p s).answer = .ok (some best) → best.status = .optimal →
      p.IntegerFeasible best.values ∧ best.objectiveValue = p.objectiveAt best.values ∧
        ∀ x, p.IntegerFeasible x → p.sense.Better (p.objectiveAt x) best.objectiveValue →
          Search.Doubts p s threshold x := by
  obtain ⟨threshold, hthreshold⟩ := Search.exists_threshold hp hb
  refine ⟨threshold, fun s best hs hi hm h hstatus => ?_⟩
  obtain ⟨final, hrun, hexhausted, sol, hsol, -, -, hfinal⟩ := exists_of_answer h
  have hend : final.isExhausted = false := by
    rw [hstatus] at hfinal
    by_contra hne
    rw [if_pos (Bool.of_not_eq_false hne)] at hfinal
    cases hfinal
  obtain ⟨hfeasible, hvalue, hdrops⟩ := drops_of_better
    (fun node sol he => he.optimum hp hb hs) hi (hexhausted.trans hend) h
  refine ⟨hfeasible, hvalue, fun x hx hbetter => ?_⟩
  rcases hthreshold s x hs hm.le (hdrops x hx hbetter) with hdoubts | ⟨root, he, hroot, -⟩
  · exact hdoubts
  · -- A search whose root is dropped has no answer.
    obtain ⟨last, hends⟩ := Search.run_spec hrun
    have hnone := hends.reaches.incumbent_eq_none he rfl (by rw [hroot]; decide)
    rw [← hends.incumbent, hsol] at hnone
    cases hnone

/-- Two ways to meet one requirement. The second is cheaper in whole numbers. -/
def costlyPair : Problem Rat where
  sense := .minimize
  names := [.text "x", .text "y"]
  objective := [150000, 100000]
  constraints := [⟨[3, 5], .atLeast, 3⟩]

/-- The cheaper way lies in a node that is reported as infeasible. -/
theorem searchInteger_optimal_costlyPair :
    ∃ best, (searchInteger costlyPair (.exact 100000)).answer = .ok (some best) ∧
      best.status = .optimal ∧ costlyPair.IntegerFeasible best.values ∧
      ∃ node sol, Search.Expands costlyPair (.exact 100000) node sol ∧ sol.status = .infeasible ∧
        (node.program costlyPair).Feasible [0, 1] := by
  obtain ⟨best, h, hstatus, hz⟩ := exists_answer costlyPair (.exact 100000) .optimal 150000
    (by decide +kernel)
  obtain ⟨threshold, hrun⟩ := searchInteger_optimal (p := costlyPair) (by decide +kernel)
    (by decide +kernel)
  obtain ⟨hfeasible, -, hdoubts⟩ := hrun _ best (Settings.exact_exact 100000) rfl
    (by decide +kernel) h hstatus
  obtain ⟨node, sol, he, hdoubtful, hx⟩ := hdoubts [0, 1] (by decide +kernel) (by
    rw [hz]
    show costlyPair.objectiveAt [0, 1] < 150000
    decide +kernel)
  have hmem := he.status_mem [.optimal, .infeasible] 5 (by decide +kernel)
  exact ⟨best, h, hstatus, hfeasible, node, sol, he,
    (List.mem_pair.mp hmem).resolve_left hdoubtful.ne_optimal, hx⟩

/-- Two pivots solve this program, but not the one with a lower bound on its second variable. -/
def shortRun : Problem Rat where
  sense := .maximize
  names := [.text "x", .text "y"]
  objective := [2, 3]
  constraints := [⟨[4, 1], .atMost, 16⟩, ⟨[1, 2], .atMost, 5⟩]

/-- Integer solutions that are reported as optimal are, for settings that are accepted and have no
tolerances, where every relaxation is optimal or has one other status. -/
def OptimalSound (status : Status) : Prop :=
  ∀ (p : Problem Rat) (s : Settings Rat) (best : Solution Rat), p.Regular →
    (∀ c ∈ p.constraints, 0 ≤ c.rhs) → s.check = .ok () → s.Exact → s.integrality = 0 →
    (∀ node sol, Search.Expands p s node sol → sol.status ∈ [.optimal, status]) →
    (searchInteger p s).answer = .ok (some best) → best.status = .optimal →
    ∀ x, p.IntegerFeasible x → ¬p.sense.Better (p.objectiveAt x) best.objectiveValue

/-- A report is not right for every penalty, even if no run is cut short, and not for every limit on
pivots, even if no relaxation is reported as infeasible or unbounded. -/
theorem integer_optimal_not_sound :
    ¬OptimalSound .infeasible ∧ ¬OptimalSound .nonConvergent := by
  constructor
  · intro hsound
    obtain ⟨best, h, hstatus, hz⟩ := exists_answer costlyPair (.exact 1e5) .optimal 150000
      (by decide +kernel)
    refine hsound costlyPair (.exact 1e5) best (by decide +kernel) (by decide +kernel)
      (eq_ok_of_isOk (by decide +kernel)) (Settings.exact_exact 1e5) rfl
      (fun node sol he => he.status_mem _ 5 (by decide +kernel)) h hstatus [0, 1]
      (by decide +kernel) ?_
    rw [hz]
    show costlyPair.objectiveAt [0, 1] < 150000
    decide +kernel
  · intro hsound
    obtain ⟨best, h, hstatus, hz⟩ := exists_answer shortRun
      { Settings.exact 1e5 with maxIterations := .whole 2 } .optimal 8 (by decide +kernel)
    refine hsound shortRun _ best (by decide +kernel) (by decide +kernel)
      (eq_ok_of_isOk (by decide +kernel)) ⟨rfl, rfl, rfl⟩ rfl
      (fun node sol he => he.status_mem _ 5 (by decide +kernel)) h hstatus [3, 1]
      (by decide +kernel) ?_
    rw [hz]
    show 8 < shortRun.objectiveAt [3, 1]
    decide +kernel

/-- **A search that ends by itself without an answer** has no integer point to find, from a
threshold on that belongs to the program alone, unless the run of a relaxation was cut short or the
objective of the program is unbounded: every integer point lies in a node whose relaxation was
doubtful, or the program itself is reported as unbounded. -/
theorem searchInteger_none (hp : p.Regular) (hb : ∀ c ∈ p.constraints, 0 ≤ c.rhs) :
    ∃ threshold : Rat, ∀ s : Settings Rat, s.Exact → s.integrality = 0 → 0 < s.penalty →
      (searchInteger p s).answer = .ok none → (searchInteger p s).search.isExhausted = false →
      ∀ x, p.IntegerFeasible x → Search.Doubts p s threshold x ∨
        ∃ sol, solve p s false = .ok sol ∧ sol.status = .unbounded ∧
          (threshold ≤ s.penalty → p.Unbounded) := by
  obtain ⟨threshold, hthreshold⟩ := Search.exists_threshold hp hb
  refine ⟨threshold, fun s hs hi hm h hend x hx => ?_⟩
  have hdrops := drops_of_none (fun node sol he => he.optimum hp hb hs) hi hend h hx
  rcases hthreshold s x hs hm.le hdrops with hdoubts | ⟨sol, he, hsol, hunbounded⟩
  · exact .inl hdoubts
  · exact .inr ⟨sol, he.solves, hsol, hunbounded⟩

/-- A requirement that costs more than the penalty in whole numbers. -/
def costlyStep : Problem Rat where
  sense := .minimize
  names := [.text "x"]
  objective := [150000]
  constraints := [⟨[2], .atLeast, 3⟩]

/-- The integer points lie in a node that is reported as infeasible. -/
theorem searchInteger_none_costlyStep :
    (searchInteger costlyStep (.exact 100000)).answer = .ok none ∧
      ∃ node sol, Search.Expands costlyStep (.exact 100000) node sol ∧ sol.status = .infeasible ∧
        (node.program costlyStep).Feasible [2] := by
  have h : (searchInteger costlyStep (.exact 100000)).answer = .ok none :=
    answer_eq_none (by decide +kernel)
  obtain ⟨threshold, hrun⟩ := searchInteger_none (p := costlyStep) (by decide +kernel)
    (by decide +kernel)
  refine ⟨h, ?_⟩
  rcases hrun _ (Settings.exact_exact 100000) rfl (by decide +kernel) h (by decide +kernel) [2]
      (by decide +kernel) with
    ⟨node, sol, he, hdoubtful, hx⟩ | ⟨sol, hsol, hunbounded, -⟩
  · have hmem := he.status_mem [.optimal, .infeasible] 5 (by decide +kernel)
    exact ⟨node, sol, he, (List.mem_pair.mp hmem).resolve_left hdoubtful.ne_optimal, hx⟩
  · obtain ⟨sol', hsol', hoptimal⟩ := exists_solution costlyStep (.exact 100000) false .optimal
      (by decide +kernel)
    rw [hsol] at hsol'
    cases hsol'
    rw [hunbounded] at hoptimal
    cases hoptimal

/-- A square that takes two pivots. -/
def unitSquare : Problem Rat where
  sense := .maximize
  names := [.text "x", .text "y"]
  objective := [1, 1]
  constraints := [⟨[1, 0], .atMost, 1⟩, ⟨[0, 1], .atMost, 1⟩]

/-- A variable that may grow. -/
def openRay : Problem Rat where
  sense := .maximize
  names := [.text "x"]
  objective := [1]
  constraints := [⟨[1], .atLeast, 1⟩]

/-- There is no integer point where a search that ends by itself has no answer, for settings that
are accepted and have no tolerances, where every relaxation is optimal or has one other status. -/
def NoneSound (status : Status) : Prop :=
  ∀ (p : Problem Rat) (s : Settings Rat), p.Regular → (∀ c ∈ p.constraints, 0 ≤ c.rhs) →
    s.check = .ok () → s.Exact → s.integrality = 0 →
    (∀ node sol, Search.Expands p s node sol → sol.status ∈ [.optimal, status]) →
    (searchInteger p s).answer = .ok none → (searchInteger p s).search.isExhausted = false →
    ∀ x, ¬p.IntegerFeasible x

/-- Any of the three ways to drop a node can lose all integer points. -/
theorem integer_none_not_sound :
    ¬NoneSound .infeasible ∧ ¬NoneSound .nonConvergent ∧ ¬NoneSound .unbounded := by
  refine ⟨fun hsound => ?_, fun hsound => ?_, fun hsound => ?_⟩
  · exact hsound costlyStep (.exact 1e5) (by decide +kernel) (by decide +kernel)
      (eq_ok_of_isOk (by decide +kernel)) (Settings.exact_exact 1e5) rfl
      (fun node sol he => he.status_mem _ 5 (by decide +kernel))
      (answer_eq_none (by decide +kernel)) (by decide +kernel) [2] (by decide +kernel)
  · exact hsound unitSquare { Settings.exact 1e5 with maxIterations := .whole 1 }
      (by decide +kernel) (by decide +kernel) (eq_ok_of_isOk (by decide +kernel))
      ⟨rfl, rfl, rfl⟩ rfl
      (fun node sol he => he.status_mem _ 5 (by decide +kernel))
      (answer_eq_none (by decide +kernel)) (by decide +kernel) [1, 1] (by decide +kernel)
  · exact hsound openRay (.exact 1e5) (by decide +kernel) (by decide +kernel)
      (eq_ok_of_isOk (by decide +kernel)) (Settings.exact_exact 1e5) rfl
      (fun node sol he => he.status_mem _ 5 (by decide +kernel))
      (answer_eq_none (by decide +kernel)) (by decide +kernel) [1] (by decide +kernel)

end TableauSimplex
