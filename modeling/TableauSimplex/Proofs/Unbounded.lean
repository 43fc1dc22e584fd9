import TableauSimplex.Proofs.Solve
import TableauSimplex.Proofs.Tableau.Basis

/-!
# Reported unboundedness

A run that meets an entering column without a positive entry is reported as unbounded. The ray of
that column is a direction in which the gain after the penalty grows without bound, but artificial
variables may take part in it and in the point it starts from. So the verdict says nothing about
feasible points by itself, and with a small penalty not even that the program has no optimum
(`unbounded_not_sound`).

A program has finitely many rays. From a penalty on, the ray of an unbounded run does without
artificial variables, and then every feasible point can be moved along it (`solve_unbounded`).
-/

namespace TableauSimplex

variable {p : Problem Rat} {s : Settings Rat} {withGraph : Bool} {sol : Solution Rat}
  {t : Tableau Rat} {penalty z c : Rat} {v d : Nat → Rat} {x : List Rat}

namespace Problem

/-! ## Directions of the first tableau -/

theorem gain_add_smul (hp : p.Regular) (v d : Nat → Rat) (a : Rat) :
    p.gain (p.decision (v + a • d)) = p.gain (p.decision v) + a * p.gain (p.decision d) := by
  simp only [gain_eq, decision, Scalar.dot_range (length_maximized hp), Pi.add_apply,
    Pi.smul_apply, smul_eq_mul, mul_add, Finset.sum_add_distrib, Finset.mul_sum]
  congr 1
  exact Finset.sum_congr rfl fun j _ => mul_left_comm _ _ _

theorem valueAt_add_smul (v d : Nat → Rat) (a : Rat) (col : Option Nat) :
    valueAt (v + a • d) col = valueAt v col + a * valueAt d col := by
  cases col <;> simp

theorem artificialSum_add_smul (v d : Nat → Rat) (a : Rat) :
    p.artificialSum (v + a • d) = p.artificialSum v + a * p.artificialSum d := by
  simp only [artificialSum, valueAt_add_smul, Finset.sum_add_distrib, Finset.mul_sum]

/-- **The rate of a direction** is its gain less the penalty on its artificial variables. -/
theorem drift_rate (hp : p.Regular) (hs : (Tableau.start p penalty).Solves v z)
    (hd : (Tableau.start p penalty).Drift d c) :
    c = p.gain (p.decision d) - penalty * p.artificialSum d := by
  have h0 := ((start_solves_iff hp).mp hs).2
  have h1 := ((start_solves_iff hp).mp (hs.add_smul hd 1)).2
  rw [gain_add_smul hp, artificialSum_add_smul, h0] at h1
  linear_combination h1

/-- A nonnegative solution gives a relaxed point that gains at least as much after the penalty. -/
theorem le_gain_sub_penalty (hp : p.Regular) (hm : 0 ≤ penalty) (hv : ∀ j, 0 ≤ v j)
    (hs : (Tableau.start p penalty).Solves v z) :
    z ≤ p.gain (p.decision v) - penalty * p.shortfall (p.decision v) := by
  rw [((start_solves_iff hp).mp hs).2]
  exact sub_le_sub_left (mul_le_mul_of_nonneg_left (shortfall_le_artificialSum hp hv hs) hm) _

/-- **A feasible point moved along a nonnegative direction without artificial variables stays
feasible.** -/
theorem feasible_add_smul (hp : p.Regular) (hx : p.Feasible x)
    (hd : (Tableau.start p penalty).Drift d c) (hn : ∀ j, 0 ≤ d j) (h0 : p.artificialSum d = 0)
    {a : Rat} (ha : 0 ≤ a) : p.Feasible (p.decision (p.extend x + a • d)) := by
  obtain ⟨hr, hshort⟩ := feasible_iff_relaxed.mp hx
  obtain ⟨hs, hxn⟩ := solves_extend penalty hp hr
  have hv : ∀ j, 0 ≤ (p.extend x + a • d) j := fun j =>
    add_nonneg (hxn j) (mul_nonneg ha (hn j))
  have hs' := hs.add_smul hd a
  have hle := shortfall_le_artificialSum hp hv hs'
  rw [artificialSum_add_smul, artificialSum_extend, hshort, h0, mul_zero, add_zero] at hle
  exact feasible_iff_relaxed.mpr
    ⟨(relaxed_of_solves hp hv hs').1, le_antisymm hle shortfall_nonneg⟩

end Problem

/-! ## The ray of an unbounded run -/

/-- A value that grows at a positive rate passes every bound. -/
theorem exists_lt_add_mul (z bound : Rat) (hc : 0 < c) :
    ∃ a : Rat, 0 ≤ a ∧ bound < z + a * c := by
  refine ⟨max 0 ((bound - z) / c + 1), le_max_left _ _, ?_⟩
  have hle := mul_le_mul_of_nonneg_right (le_max_right 0 ((bound - z) / c + 1)) hc.le
  rw [add_mul, div_mul_cancel₀ _ hc.ne', one_mul] at hle
  linarith

/-- The basic point of a tableau is nonnegative, and so is the ray of a column, along which the
objective value grows. -/
structure Tableau.GrowsAlong (p : Problem Rat) (penalty : Rat) (t : Tableau Rat) (col : Nat) :
    Prop where
  hasRowsOf : t.HasRowsOf p
  lt : col < t.numColumns
  valueOf_nonneg : ∀ j, 0 ≤ t.valueOf j
  ray_nonneg : ∀ j, 0 ≤ t.ray col j
  solves : (Tableau.start p penalty).Solves t.valueOf t.objective.rhs
  drift : (Tableau.start p penalty).Drift (t.ray col) (-t.objective.vec col)
  rate_pos : 0 < -t.objective.vec col

/-- **A run that is reported as unbounded** ends at a tableau that grows along a ray. -/
theorem exists_growsAlong (hp : p.Regular) (hb : ∀ c ∈ p.constraints, 0 ≤ c.rhs)
    (hs : s.Exact) (h : solve p s withGraph = .ok sol) (hstatus : sol.status = .unbounded) :
    ∃ t col, Tableau.GrowsAlong p s.penalty t col := by
  obtain ⟨t, hread⟩ := solve_spec hp h
  have hleft := hread.leftWith
  rw [hstatus] at hleft
  obtain ⟨col, hcol, hrow⟩ := hleft
  rw [hs.entering] at hcol
  rw [hs.ratio] at hrow
  have he := t.enteringColumn_spec 0
  rw [hcol, neg_zero] at he
  obtain ⟨hneg, hfirst⟩ := he
  have hl := hread.canonical.toWellShaped.leavingRow_spec hfirst.lt 0
  rw [hrow] at hl
  exact ⟨t, col, {
    hasRowsOf := hread.sameEquations.hasRowsOf hp hread.canonical
    lt := hfirst.lt
    valueOf_nonneg := hread.valueOf_nonneg hs.ratio hb
    ray_nonneg := Tableau.ray_nonneg fun i hi => not_lt.mp (hl i hi)
    solves := hread.solves hp
    drift := hread.sameEquations.drift (Tableau.wellShaped_start hp) hread.canonical
      (hread.canonical.drift_ray hfirst.lt)
    rate_pos := neg_pos.mpr hneg }⟩

/-- What a ray gains for each unit of artificial variables. -/
private def gainPerArtificial (p : Problem Rat) (col : Nat) (t : Tableau Rat) : Rat :=
  p.gain (p.decision (t.ray col)) / p.artificialSum (t.ray col)

/-- **The penalty keeps artificial variables out of the ray.** It would outweigh the gain if one
took part in it. -/
private theorem artificialSum_ray_eq_zero (hp : p.Regular) {col : Nat}
    (ht : Tableau.GrowsAlong p penalty t col) (hle : gainPerArtificial p col t ≤ penalty) :
    p.artificialSum (t.ray col) = 0 := by
  have hrate := ht.rate_pos
  rw [Problem.drift_rate hp ht.solves ht.drift] at hrate
  by_contra hne
  have hpos : 0 < p.artificialSum (t.ray col) := lt_of_le_of_ne
    (Finset.sum_nonneg fun i _ => Problem.valueAt_nonneg ht.ray_nonneg _) (Ne.symm hne)
  have hgain := (div_le_iff₀ hpos).mp hle
  linarith

/-- The rays of a program gain no more for each unit of artificial variables than some bound. -/
private theorem exists_ray_bound (p : Problem Rat) :
    ∃ bound : Rat, ∀ (t : Tableau Rat) (col : Nat), t.HasRowsOf p → col < t.numColumns →
      gainPerArtificial p col t ≤ bound := by
  have hcol : ∀ col, ∃ bound : Rat, ∀ t : Tableau Rat, t.HasRowsOf p → col < t.numColumns →
      gainPerArtificial p col t ≤ bound := by
    intro col
    by_cases hn : col < p.numVars + p.numAuxiliary
    · obtain ⟨bound, hbound⟩ := Tableau.exists_bound p (gainPerArtificial p col)
        fun t t' ht ht' hcols => by
          rw [gainPerArtificial, gainPerArtificial, ht.ray_eq ht' hcols (by rwa [ht.numColumns])]
      exact ⟨bound, fun t ht _ => hbound t ht⟩
    · exact ⟨0, fun t ht hc => absurd (ht.numColumns ▸ hc) hn⟩
  choose bound hbound using hcol
  obtain ⟨M, hM⟩ :=
    ((Finset.range (p.numVars + p.numAuxiliary)).image bound).finite_toSet.bddAbove
  refine ⟨M, fun t col ht hc => le_trans (hbound col t ht hc) (hM ?_)⟩
  exact Finset.mem_coe.mpr (Finset.mem_image_of_mem _ (Finset.mem_range.mpr (ht.numColumns ▸ hc)))

/-- **Reported unboundedness.** The gain after the penalty for what is missed grows without bound
over the relaxed points. From a threshold on that belongs to the program alone, the objective is
unbounded over the feasible points too, if there are any. -/
theorem solve_unbounded (hp : p.Regular) (hb : ∀ c ∈ p.constraints, 0 ≤ c.rhs) :
    ∃ threshold : Rat, ∀ (s : Settings Rat) (withGraph : Bool) (sol : Solution Rat), s.Exact →
      0 < s.penalty → solve p s withGraph = .ok sol → sol.status = .unbounded →
      (∀ bound, ∃ x, p.Relaxed x ∧ bound < p.gain x - s.penalty * p.shortfall x) ∧
        (threshold ≤ s.penalty → (∃ x, p.Feasible x) →
          ∀ bound, ∃ x, p.Feasible x ∧ p.sense.Better (p.objectiveAt x) bound) := by
  obtain ⟨threshold, hthreshold⟩ := exists_ray_bound p
  refine ⟨threshold, fun s withGraph sol hs hm h hstatus => ?_⟩
  obtain ⟨t, col, ht⟩ := exists_growsAlong hp hb hs h hstatus
  constructor
  · intro bound
    obtain ⟨a, ha, hlt⟩ := exists_lt_add_mul t.objective.rhs bound ht.rate_pos
    have hn : ∀ j, 0 ≤ (t.valueOf + a • t.ray col) j := fun j =>
      add_nonneg (ht.valueOf_nonneg j) (mul_nonneg ha (ht.ray_nonneg j))
    have hsolves := ht.solves.add_smul ht.drift a
    exact ⟨_, (Problem.relaxed_of_solves hp hn hsolves).1,
      lt_of_lt_of_le hlt (Problem.le_gain_sub_penalty hp hm.le hn hsolves)⟩
  · rintro hle ⟨x, hx⟩ bound
    have h0 := artificialSum_ray_eq_zero hp ht
      (le_trans (hthreshold t col ht.hasRowsOf ht.lt) hle)
    have hrate := ht.rate_pos
    rw [Problem.drift_rate hp ht.solves ht.drift, h0, mul_zero, sub_zero] at hrate
    obtain ⟨a, ha, hlt⟩ := exists_lt_add_mul (p.gain x) (p.sense.orient bound) hrate
    refine ⟨_, Problem.feasible_add_smul hp hx ht.drift ht.ray_nonneg h0 ha, ?_⟩
    rw [Sense.better_iff]
    show _ < p.gain _
    rw [Problem.gain_add_smul hp, Problem.decision_extend hx.length]
    exact hlt

/-- Two variables that may grow together. -/
def openStrip : Problem Rat where
  sense := .maximize
  names := [.text "x", .text "y"]
  objective := [1, 1]
  constraints := [⟨[1, -1], .atMost, 1⟩, ⟨[1, 0], .atLeast, 1⟩]

/-- The gain grows without bound, less the penalty for what is missed. -/
theorem solve_unbounded_openStrip :
    ∃ sol, solve openStrip (.exact 100000) false = .ok sol ∧ sol.status = .unbounded ∧
      ∀ bound, ∃ x, openStrip.Relaxed x ∧
        bound < openStrip.gain x - 100000 * openStrip.shortfall x := by
  obtain ⟨sol, h, hstatus⟩ := exists_solution openStrip (.exact 100000) false .unbounded
    (by decide +kernel)
  obtain ⟨threshold, hrun⟩ := solve_unbounded (p := openStrip) (by decide +kernel)
    (by decide +kernel)
  exact ⟨sol, h, hstatus,
    (hrun _ _ _ (Settings.exact_exact 100000) (by decide +kernel) h hstatus).1⟩

/-- No point satisfies the only row. -/
def emptyRow : Problem Rat where
  sense := .maximize
  names := [.text "x"]
  objective := [1]
  constraints := [⟨[0], .equal, 1⟩]

/-- The only feasible point is zero. -/
def zeroRow : Problem Rat where
  sense := .maximize
  names := [.text "x"]
  objective := [200000]
  constraints := [⟨[-1], .atLeast, 0⟩]

/-- With the default penalty, an unbounded run does not mean that there are feasible points, nor
that the objective is unbounded over them where there are. -/
theorem unbounded_not_sound :
    (¬∀ (p : Problem Rat) (s : Settings Rat) (withGraph : Bool) (sol : Solution Rat), p.Regular →
      (∀ c ∈ p.constraints, 0 ≤ c.rhs) → 0 < s.penalty → s.Exact →
      solve p s withGraph = .ok sol → sol.status = .unbounded → ∃ x, p.Feasible x) ∧
    ¬∀ (p : Problem Rat) (s : Settings Rat) (withGraph : Bool) (sol : Solution Rat), p.Regular →
      (∀ c ∈ p.constraints, 0 ≤ c.rhs) → 0 < s.penalty → s.Exact →
      solve p s withGraph = .ok sol → sol.status = .unbounded → (∃ x, p.Feasible x) →
      ∀ bound, ∃ x, p.Feasible x ∧ p.sense.Better (p.objectiveAt x) bound := by
  constructor
  · intro hsound
    obtain ⟨sol, h, hstatus⟩ := exists_solution emptyRow (.exact 1e5) false .unbounded
      (by decide +kernel)
    obtain ⟨x, hx⟩ := hsound emptyRow (.exact 1e5) false sol (by decide +kernel)
      (by decide +kernel) (by decide +kernel) (Settings.exact_exact 1e5) h hstatus
    have hrow : Scalar.dot [0] x = 1 := hx.holds _ (List.mem_singleton.mpr rfl)
    rw [Scalar.dot_eq] at hrow
    simp at hrow
  · intro hsound
    obtain ⟨sol, h, hstatus⟩ := exists_solution zeroRow (.exact 1e5) false .unbounded
      (by decide +kernel)
    obtain ⟨x, hx, hbetter⟩ := hsound zeroRow (.exact 1e5) false sol (by decide +kernel)
      (by decide +kernel) (by decide +kernel) (Settings.exact_exact 1e5) h hstatus
      ⟨[0], by decide +kernel⟩ 0
    have hrow : 0 ≤ Scalar.dot [-1] x := hx.holds _ (List.mem_singleton.mpr rfl)
    have hvalue : 0 < Scalar.dot [200000] x := hbetter
    rw [Scalar.dot_eq] at hrow hvalue
    simp only [List.length_singleton, Finset.sum_range_one, List.getD_cons_zero] at hrow hvalue
    linarith

end TableauSimplex
