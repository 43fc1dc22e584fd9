import TableauSimplex.Proofs.Run
import TableauSimplex.Proofs.Tableau.Solutions
import TableauSimplex.Solution.Solve

/-!
# What a solve reports

A solution is read off the tableau that its run reached from the first tableau
(`exists_fromRun`). `Solution.FromRun.readOff` says what is known of that tableau: it is canonical,
it stands for the equations of the first one, and the status says how it was left
(`Solution.ReadOff`). `lastTableau` computes that tableau, and `solve_lastTableau` says what is
read off it.

* `SameEquations.solves_start`: the basic values solve the equations of the first tableau.
* `SameEquations.hasPositiveArtificial_iff`: the test for artificial variables looks at the values
  of all of them.
* `ReadOff.penalized_gain_le`: without a column to enter no relaxed point gains more after the
  penalty than the objective row says.
-/

namespace TableauSimplex

/-- How a run leaves its last tableau under a status. -/
def Tableau.LeftWith (s : Settings Rat) (t : Tableau Rat) : Status → Prop
  | .optimal =>
    t.enteringColumn s.entering = .ok none ∧ t.hasPositiveArtificial s.feasibility = false
  | .infeasible =>
    t.enteringColumn s.entering = .ok none ∧ t.hasPositiveArtificial s.feasibility = true
  | .unbounded =>
    ∃ col, t.enteringColumn s.entering = .ok (some col) ∧ t.leavingRow col s.ratio = none
  | .nonConvergent => True
  | .nodeLimit => False

/-- A solution of a program is read off a tableau. -/
structure Solution.ReadOff (p : Problem Rat) (s : Settings Rat) (sol : Solution Rat)
    (t : Tableau Rat) : Prop where
  canonical : t.Canonical
  sameEquations : Tableau.SameEquations (Tableau.start p s.penalty) t
  rhs_nonneg : s.ratio = 0 → (∀ c ∈ p.constraints, 0 ≤ c.rhs) → ∀ r ∈ t.rows, 0 ≤ r.rhs
  leftWith : t.LeftWith s sol.status
  values : sol.values = t.values
  objectiveValue : sol.objectiveValue = t.objectiveValue
  shadowPrices : sol.shadowPrices = t.shadowPrices p

variable {p : Problem Rat} {s : Settings Rat} {withGraph : Bool} {sol : Solution Rat}
  {t : Tableau Rat} {penalty : Rat}

/-! ## The end of a run -/

private theorem leftWith_of_status {r : Run Rat} {stop : Option Error} {status : Status}
    (h : r.status s stop = .ok status) :
    Run.IsEnding stop ∧ (r.EndsWith s stop → r.tableau.LeftWith s status) := by
  cases stop with
  | none =>
    cases h
    refine ⟨trivial, fun he => ?_⟩
    split
    · rename_i ha
      exact ⟨he, ha⟩
    · rename_i ha
      exact ⟨he, by simpa using ha⟩
  | some cause =>
    cases cause <;> cases h
    · exact ⟨trivial, id⟩
    · exact ⟨trivial, fun _ => trivial⟩

/-- A solution is what the last state of a run is reported as. -/
structure Solution.FromRun (p : Problem Rat) (s : Settings Rat) (sol : Solution Rat)
    (first last : Run Rat) (stop : Option Error) : Prop where
  start : ∃ t, Tableau.ofProblem p s.penalty = .ok t ∧ Run.start t = .ok first
  finish : first.finish s = (last, stop)
  status : last.status s stop = .ok sol.status
  values : sol.values = last.tableau.values
  objectiveValue : sol.objectiveValue = last.tableau.objectiveValue
  shadowPrices : sol.shadowPrices = last.tableau.shadowPrices p
  iterations : sol.iterations = last.iterations

/-- A solve runs the simplex method once, from the first tableau, looks for another optimum at the
end of the run, and draws the graph if there is to be one. -/
theorem exists_fromRun_of_solve (h : solve p s withGraph = .ok sol) :
    ∃ first last stop, sol.FromRun p s first last stop ∧
      (∃ events, last.otherOptimum s sol.status = .ok ((sol.multiple, sol.alternate), events)) ∧
      (withGraph = true →
        Plane.graph p sol.values sol.objectiveValue s = .ok sol.graph) := by
  rw [solve] at h
  obtain ⟨⟨sol', events⟩, h, hsol⟩ : ∃ a, solveLogged p s withGraph = .ok a ∧ a.1 = sol := by
    cases hl : solveLogged p s withGraph with
    | error e => rw [hl] at h; cases h
    | ok a => rw [hl] at h; cases h; exact ⟨a, rfl, rfl⟩
  obtain ⟨t₀, ht, h⟩ := exists_of_bind_eq_ok h
  obtain ⟨r₀, hr₀, h⟩ := exists_of_bind_eq_ok h
  obtain ⟨⟨r, stop⟩, hfinish⟩ : ∃ e, r₀.finish s = e := ⟨_, rfl⟩
  simp only [hfinish] at h
  obtain ⟨status, hstatus, h⟩ := exists_of_bind_eq_ok h
  obtain ⟨⟨⟨multiple, alternate⟩, searchEvents⟩, hother, h⟩ := exists_of_bind_eq_ok h
  obtain ⟨graph, hgraph, h⟩ : ∃ graph, (withGraph = true →
      Plane.graph p r.tableau.values r.tableau.objectiveValue s = .ok graph) ∧
      sol' = ⟨status, r.tableau.objectiveValue, p.names, r.tableau.values,
        r.tableau.shadowPrices p, r.iterations, multiple, alternate, graph⟩ := by
    cases withGraph with
    | false => cases h; exact ⟨_, nofun, rfl⟩
    | true =>
      obtain ⟨graph, hgraph, h⟩ := exists_of_bind_eq_ok h
      cases h
      exact ⟨graph, fun _ => hgraph, rfl⟩
  subst h
  subst hsol
  exact ⟨r₀, r, stop, ⟨⟨t₀, ht, hr₀⟩, hfinish, hstatus, rfl, rfl, rfl, rfl⟩,
    ⟨searchEvents, hother⟩, hgraph⟩

theorem exists_fromRun (h : solve p s withGraph = .ok sol) :
    ∃ first last stop, sol.FromRun p s first last stop := by
  obtain ⟨first, last, stop, hrun, -⟩ := exists_fromRun_of_solve h
  exact ⟨first, last, stop, hrun⟩

/-- The run of a solve starts from the first tableau of the program. -/
theorem Solution.FromRun.tableau_first (hp : p.Regular) {first last : Run Rat}
    {stop : Option Error} (h : sol.FromRun p s first last stop) :
    first.tableau = Tableau.start p s.penalty := by
  obtain ⟨t, ht, hfirst⟩ := h.start
  rw [Tableau.ofProblem_eq hp] at ht
  cases ht
  exact Run.tableau_start hfirst

/-- **What a solve reports** is read off the tableau that its run ended at. -/
theorem Solution.FromRun.readOff (hp : p.Regular) {first last : Run Rat} {stop : Option Error}
    (h : sol.FromRun p s first last stop) : sol.ReadOff p s last.tableau := by
  obtain ⟨hend, hleft⟩ := leftWith_of_status h.status
  obtain ⟨hreach, hends⟩ := Run.finish_spec h.finish hend
  have ht := h.tableau_first hp
  have hcan : (Tableau.start p s.penalty).Canonical := Tableau.canonical_start hp
  rw [← ht] at hcan
  exact {
    canonical := hreach.canonical hcan
    sameEquations := ht ▸ hreach.sameEquations hcan
    rhs_nonneg := fun hs hb => hreach.rhs_nonneg hcan hs (ht ▸ Tableau.rhs_start hb)
    leftWith := hleft hends
    values := h.values
    objectiveValue := h.objectiveValue
    shadowPrices := h.shadowPrices }

private theorem numDecision_of_ofProblem (h : Tableau.ofProblem p penalty = .ok t) :
    t.numDecision = p.numVars := by
  obtain ⟨rows, -, h⟩ := exists_of_bind_eq_ok h
  obtain ⟨costs, -, h⟩ := exists_of_bind_eq_ok h
  cases h
  rfl

/-- **A solution has one value per variable,** also where the coefficients do not fit. -/
theorem length_values_of_solve (h : solve p s withGraph = .ok sol) :
    sol.values.length = p.numVars := by
  obtain ⟨first, last, stop, hrun⟩ := exists_fromRun h
  obtain ⟨t₀, ht₀, hfirst⟩ := hrun.start
  obtain ⟨hend, -⟩ := leftWith_of_status hrun.status
  obtain ⟨hreach, -⟩ := Run.finish_spec hrun.finish hend
  rw [hrun.values, Tableau.values, List.length_map, List.length_range, hreach.numDecision,
    Run.tableau_start hfirst, numDecision_of_ofProblem ht₀]

/-- **A solution has one price per constraint.** -/
theorem length_shadowPrices_of_solve (h : solve p s withGraph = .ok sol) :
    sol.shadowPrices.length = p.constraints.length := by
  obtain ⟨first, last, stop, hrun⟩ := exists_fromRun h
  rw [hrun.shadowPrices, Tableau.shadowPrices, List.length_mapIdx]

theorem solve_spec (hp : p.Regular) (h : solve p s withGraph = .ok sol) :
    ∃ t, sol.ReadOff p s t := by
  obtain ⟨first, last, stop, hrun⟩ := exists_fromRun h
  exact ⟨last.tableau, hrun.readOff hp⟩

/-- The tableau that the run of a solve ends with. -/
def lastTableau (p : Problem Rat) (s : Settings Rat) : Except Error (Tableau Rat) := do
  let first ← Run.start (← Tableau.ofProblem p s.penalty)
  return (first.finish s).1.tableau

theorem Solution.FromRun.lastTableau_eq {first last : Run Rat} {stop : Option Error}
    (h : sol.FromRun p s first last stop) : lastTableau p s = .ok last.tableau := by
  obtain ⟨t₀, ht₀, hfirst⟩ := h.start
  rw [lastTableau, ht₀]
  show (Run.start t₀ >>= _) = _
  rw [hfirst]
  show Except.ok (first.finish s).1.tableau = _
  rw [h.finish]

/-- **A solution is read off the last tableau,** and where it is optimal another optimum is looked
for there. -/
theorem solve_lastTableau (hp : p.Regular) (h : solve p s withGraph = .ok sol) :
    ∃ t, lastTableau p s = .ok t ∧ sol.ReadOff p s t ∧ (sol.status = .optimal →
      t.otherOptimum s.reducedCost s.ratio = .ok (sol.multiple, sol.alternate)) := by
  obtain ⟨first, last, stop, hrun, ⟨events, hother⟩, -⟩ := exists_fromRun_of_solve h
  refine ⟨last.tableau, hrun.lastTableau_eq, hrun.readOff hp, fun ho => ?_⟩
  rw [ho] at hother
  generalize (sol.multiple, sol.alternate) = reported at hother ⊢
  obtain ⟨found, hfound, hother⟩ := exists_of_bind_eq_ok hother
  rw [hfound]
  simp only at hother
  split at hother <;> cases hother <;> rfl

/-- What is read off the last tableau by computing it. -/
theorem readOff_of_lastTableau (hp : p.Regular) (h : solve p s withGraph = .ok sol)
    (ht : lastTableau p s = .ok t) : sol.ReadOff p s t := by
  obtain ⟨t', ht', hread, -⟩ := solve_lastTableau hp h
  cases ht.symm.trans ht'
  exact hread

/-! ## Readings -/

namespace Tableau

/-- With no column to enter, the objective value is at least that of every nonnegative solution. -/
theorem le_rhs_of_solves {v : Nat → Rat} {z : Rat} (ho : ∀ j < t.numColumns, 0 ≤ t.objective.vec j)
    (hv : ∀ j, 0 ≤ v j) (h : t.Solves v z) : z ≤ t.objective.rhs := by
  have hl : 0 ≤ t.objective.lhs v :=
    Finset.sum_nonneg fun j hj => mul_nonneg (ho j (Finset.mem_range.mp hj)) (hv j)
  rw [← h.2]
  exact le_add_of_nonneg_right hl

theorem nonneg_of_enteringColumn (h : t.enteringColumn 0 = .ok none) :
    ∀ j < t.numColumns, 0 ≤ t.objective.vec j := by
  have hs := t.enteringColumn_spec 0
  rw [h] at hs
  intro j hj
  have hle := hs j hj
  rwa [neg_zero] at hle

section

variable (h : SameEquations (start p penalty) t)

include h

theorem SameEquations.values : t.values = p.decision t.valueOf := by
  have hn : t.numDecision = p.numVars := congrArg numDecision h.frame
  rw [Tableau.values, Problem.decision, hn]

theorem SameEquations.objectiveValue : t.objectiveValue = p.sense.orient t.objective.rhs := by
  have hn : t.minimize = (p.sense == .minimize) := congrArg minimize h.frame
  rw [Tableau.objectiveValue, hn]
  cases p.sense <;> rfl

/-- **The basic values solve the equations of the first tableau.** -/
theorem SameEquations.solves_start (hp : p.Regular) (ht : t.Canonical) :
    (start p penalty).Solves t.valueOf t.objective.rhs :=
  (h.solves_iff (wellShaped_start hp) ht.toWellShaped).mp ht.solves_valueOf

/-- The objective row charges the penalty for all artificial variables. -/
theorem SameEquations.gain_decision (hp : p.Regular) (ht : t.Canonical) :
    p.gain (p.decision t.valueOf) = t.objective.rhs + penalty * p.artificialSum t.valueOf := by
  rw [((Problem.start_solves_iff hp).mp (h.solves_start hp ht)).2, sub_add_cancel]

/-- The columns of artificial variables are those of the constraints. -/
theorem SameEquations.isArtificial_iff {c : Nat} :
    t.isArtificial c = true ↔
      ∃ i < p.constraints.length, (p.auxiliaryAt i).artificial = some c := by
  have hc : t.artificialCols = p.auxiliary.map fun a => a.artificial.map Int.ofNat :=
    congrArg artificialCols h.frame
  rw [isArtificial, artificialIndices, hc, List.contains_iff_mem, List.mem_filterMap]
  constructor
  · rintro ⟨o, ho, hoc⟩
    obtain ⟨a, ha, rfl⟩ := List.mem_map.mp ho
    obtain ⟨i, hi, rfl⟩ := List.getElem_of_mem ha
    refine ⟨i, Problem.length_auxiliary ▸ hi, ?_⟩
    rw [Problem.auxiliaryAt_of_lt hi]
    obtain ⟨d, hd, hdc⟩ := Option.map_eq_some_iff.mp hoc
    rw [hd]
    exact congrArg some (Int.ofNat.inj hdc)
  · rintro ⟨i, hi, hic⟩
    have ha : i < p.auxiliary.length := Problem.length_auxiliary ▸ hi
    rw [Problem.auxiliaryAt_of_lt ha] at hic
    exact ⟨some c, List.mem_map.mpr ⟨_, List.getElem_mem ha, by rw [hic]; rfl⟩, rfl⟩

/-- **The test for artificial variables** looks at the values of all of them. -/
theorem SameEquations.hasPositiveArtificial_iff (ht : t.Canonical) {tol : Rat} (h0 : 0 ≤ tol) :
    t.hasPositiveArtificial tol = true ↔
      ∃ i < p.constraints.length, tol < valueAt t.valueOf (p.auxiliaryAt i).artificial := by
  rw [hasPositiveArtificial, List.any_eq_true]
  constructor
  · rintro ⟨⟨c, r⟩, hm, hcr⟩
    obtain ⟨k, hk, he⟩ := List.getElem_of_mem hm
    rw [List.length_zip, ht.length_basis, Nat.min_self] at hk
    rw [List.getElem_zip, (ht.basis_eq (ht.length_basis ▸ hk)).1, Prod.mk.injEq] at he
    obtain ⟨rfl, rfl⟩ := he
    simp only [Bool.and_eq_true, decide_eq_true_eq] at hcr
    obtain ⟨i, hi, hic⟩ := h.isArtificial_iff.mp hcr.1
    refine ⟨i, hi, ?_⟩
    rw [hic, valueAt_some, ht.valueOf_basicCol hk, rowAt_of_lt hk]
    exact hcr.2
  · rintro ⟨i, hi, hlt⟩
    cases hic : (p.auxiliaryAt i).artificial with
    | none =>
      rw [hic] at hlt
      exact absurd h0 (not_le.mpr hlt)
    | some c =>
      rw [hic, valueAt_some] at hlt
      rcases ht.valueOf_cases c with ⟨k, hk, hkc, hv⟩ | ⟨-, hv⟩
      · have hz : k < (t.basis.zip t.rows).length := by
          rw [List.length_zip, ht.length_basis, Nat.min_self]; exact hk
        refine ⟨_, List.getElem_mem hz, ?_⟩
        rw [hv, rowAt_of_lt hk] at hlt
        rw [List.getElem_zip, (ht.basis_eq (ht.length_basis ▸ hk)).1, hkc]
        simp only [Bool.and_eq_true, decide_eq_true_eq]
        exact ⟨h.isArtificial_iff.mpr ⟨i, hi, hic⟩, hlt⟩
      · rw [hv] at hlt
        exact absurd h0 (not_le.mpr hlt)

/-- Where the test finds none, no artificial variable is above the tolerance. -/
theorem SameEquations.artificial_le (ht : t.Canonical) {tol : Rat} (h0 : 0 ≤ tol)
    (ha : t.hasPositiveArtificial tol = false) {i : Nat} (hi : i < p.constraints.length) :
    valueAt t.valueOf (p.auxiliaryAt i).artificial ≤ tol := by
  by_contra hlt
  have hpos := (h.hasPositiveArtificial_iff ht h0).mpr ⟨i, hi, not_le.mp hlt⟩
  rw [ha] at hpos
  cases hpos

end

end Tableau

namespace Solution.ReadOff

variable (h : sol.ReadOff p s t)

include h

theorem values_eq : sol.values = p.decision t.valueOf :=
  h.values.trans h.sameEquations.values

theorem objectiveValue_eq : sol.objectiveValue = p.sense.orient t.objective.rhs :=
  h.objectiveValue.trans h.sameEquations.objectiveValue

/-- What the status of an optimum says of the tableau. -/
theorem leftWith_optimal (ho : sol.status = .optimal) :
    t.enteringColumn s.entering = .ok none ∧ t.hasPositiveArtificial s.feasibility = false := by
  have hleft := h.leftWith
  rwa [ho] at hleft

/-- The final tableau has the solutions of the first one. -/
theorem solves_iff (hp : p.Regular) {v : Nat → Rat} {z : Rat} :
    t.Solves v z ↔ (Tableau.start p s.penalty).Solves v z :=
  h.sameEquations.solves_iff (Tableau.wellShaped_start hp) h.canonical.toWellShaped

theorem solves (hp : p.Regular) : (Tableau.start p s.penalty).Solves t.valueOf t.objective.rhs :=
  h.sameEquations.solves_start hp h.canonical

theorem gain_values (hp : p.Regular) :
    p.gain sol.values = t.objective.rhs + s.penalty * p.artificialSum t.valueOf := by
  rw [h.values_eq, h.sameEquations.gain_decision hp h.canonical]

/-- Basic values are nonnegative when right sides are and every positive entry takes part in the
ratio test. -/
theorem valueOf_nonneg (hs : s.ratio = 0) (hb : ∀ c ∈ p.constraints, 0 ≤ c.rhs) (j : Nat) :
    0 ≤ t.valueOf j :=
  h.canonical.toWellShaped.valueOf_nonneg (h.rhs_nonneg hs hb) j

/-- An objective row without a column to enter bounds what every relaxed point gains after the
penalty. -/
theorem penalized_gain_le (hp : p.Regular) (ho : ∀ j < t.numColumns, 0 ≤ t.objective.vec j)
    {x : List Rat} (hx : p.Relaxed x) : p.gain x - s.penalty * p.shortfall x ≤ t.objective.rhs := by
  obtain ⟨hs, hn⟩ := Problem.solves_extend s.penalty hp hx
  exact Tableau.le_rhs_of_solves ho hn ((h.solves_iff hp).mpr hs)

/-- A feasible point pays no penalty. -/
theorem gain_le (hp : p.Regular) (ho : ∀ j < t.numColumns, 0 ≤ t.objective.vec j) {x : List Rat}
    (hx : p.Feasible x) : p.gain x ≤ t.objective.rhs := by
  obtain ⟨hr, h0⟩ := Problem.feasible_iff_relaxed.mp hx
  have hle := h.penalized_gain_le hp ho hr
  rwa [h0, mul_zero, sub_zero] at hle

end Solution.ReadOff

/-! ## Exact comparison -/

/-- The tolerances of pivoting and of feasibility are zero. -/
structure Settings.Exact (s : Settings Rat) : Prop where
  entering : s.entering = 0
  ratio : s.ratio = 0
  feasibility : s.feasibility = 0

/-- Settings with a penalty and without any tolerance. -/
def Settings.exact (penalty : Rat) : Settings Rat :=
  { penalty, entering := 0, ratio := 0, feasibility := 0, reducedCost := 0, integrality := 0,
    parallel := 0, duplicate := 0 }

theorem Settings.exact_exact (penalty : Rat) : (exact penalty).Exact := ⟨rfl, rfl, rfl⟩

/-- A solve whose status is computed has a solution with that status. -/
theorem exists_solution (p : Problem Rat) (s : Settings Rat) (withGraph : Bool) (status : Status)
    (h : (solve p s withGraph).toOption.map (·.status) = some status) :
    ∃ sol, solve p s withGraph = .ok sol ∧ sol.status = status := by
  cases hsolve : solve p s withGraph with
  | error e =>
    rw [hsolve] at h
    cases h
  | ok sol =>
    rw [hsolve] at h
    exact ⟨sol, rfl, Option.some.inj h⟩

end TableauSimplex
