import TableauSimplex.Proofs.Except
import TableauSimplex.Proofs.Limit
import TableauSimplex.Proofs.Tableau.Choice
import TableauSimplex.Tableau.Run

/-!
# Runs

What one step of a run does, and what every run keeps.

* `Run.step_spec`: the outcomes of a step. A step that pivots does it on the entering column and the
  leaving row (`Run.Pivoted`) and appends the record of the new tableau.
* `Run.Reaches`: what a run comes to by any number of pivots. The tableau stays canonical and stands
  for the same equations (`Reaches.canonical`, `Reaches.sameEquations`), and with ratio tolerance
  zero right sides stay nonnegative (`Reaches.rhs_nonneg`).
* `Run.HasSteps`: some steps are enough to end a run. Those that its limit grants are, and more of
  them change nothing (`Run.loop_eq_finish`).
* `Run.finish_stops`: what stops a run. `Run.finish_spec` says how it ends when there is a solution
  to read off.
-/

namespace TableauSimplex

namespace Run

variable {s : Settings Rat} {r next reached : Run Rat}

theorem tableau_start {t : Tableau Rat} (h : start t = .ok r) : r.tableau = t := by
  obtain ⟨it, -, h⟩ := exists_of_bind_eq_ok h
  cases h
  rfl

/-! ## One step -/

/-- The second run is the first after a pivot on its entering column and its leaving row. -/
structure Pivoted (s : Settings Rat) (r next : Run Rat) (row col : Nat) : Prop where
  entering : r.tableau.enteringColumn s.entering = .ok (some col)
  leavingRow : r.tableau.leavingRow col s.ratio = some row
  entry_ne_zero : (r.tableau.rowAt row).entry col ≠ 0
  tableau : next.tableau = r.tableau.pivot row col
  iterations : ∃ leaving it,
    (r.tableau.basis[row]?).bind (itemAt? r.tableau.headers) = some leaving ∧
    next.tableau.snapshot r.iterations.length (some (col : Int)) (some leaving) (some (row : Int)) =
      .ok it ∧ next.iterations = r.iterations ++ [it]

/-- A run has come to an end that the cause stands for. A run without a cause has no entering
column, and an unbounded one has no leaving row. -/
def EndsWith (s : Settings Rat) (r : Run Rat) : Option Error → Prop
  | none => r.tableau.enteringColumn s.entering = .ok none
  | some (.unbounded _) =>
    ∃ col, r.tableau.enteringColumn s.entering = .ok (some col) ∧
      r.tableau.leavingRow col s.ratio = none
  | some _ => True

/-- Whether a run that stops for a cause still has a solution to read off. -/
def IsEnding : Option Error → Prop
  | none | some (.unbounded _) | some (.noConvergence _) => True
  | some _ => False

private theorem tryPivot_cases (t : Tableau Rat) (row col : Nat) :
    (t.tryPivot row (col : Int) = (t.pivot row col, none) ∧ (t.rowAt row).entry col ≠ 0) ∨
      ∃ t' cause, t.tryPivot row (col : Int) = (t', some cause) ∧ ¬IsEnding (some cause) := by
  rw [Tableau.tryPivot, Tableau.columnAt?, place?_natCast]
  by_cases hc : col < t.numColumns + 1
  · rw [if_pos hc]
    simp only
    by_cases hr : t.rows.length < row
    · rw [if_pos hr]
      exact .inr ⟨_, _, rfl, id⟩
    · rw [if_neg hr]
      by_cases h0 : (t.rowAt row).entry col = 0
      · rw [if_pos (beq_iff_eq.mpr h0)]
        exact .inr ⟨_, _, rfl, id⟩
      · rw [if_neg (by simpa using h0)]
        by_cases hb : row < t.basis.length
        · rw [if_pos hb]
          exact .inl ⟨rfl, h0⟩
        · rw [if_neg hb]
          exact .inr ⟨_, _, rfl, id⟩
  · rw [if_neg hc]
    exact .inr ⟨_, _, rfl, id⟩

/-- A record fails only for a name that is missing. -/
private theorem snapshot_error {t : Tableau Rat} {number : Int} {entering pivotRow : Option Int}
    {leaving : Option Name} {cause : Error}
    (h : t.snapshot number entering leaving pivotRow = .error cause) : cause = .outOfRange := by
  have hname : ∀ {position : Int} {e : Error},
      t.headerAt position = .error e → e = .outOfRange := by
    intro position e he
    unfold Tableau.headerAt nameAt at he
    split at he
    · cases he
    · cases he
      rfl
  unfold Tableau.snapshot Tableau.basisNames at h
  cases hb : t.basis.mapM t.headerAt with
  | error e =>
    rw [hb] at h
    cases h
    obtain ⟨_, -, he⟩ := exists_of_mapM_eq_error hb
    exact hname he
  | ok basis =>
    rw [hb] at h
    cases entering with
    | none => cases h
    | some position =>
      cases hp : t.headerAt position with
      | ok name =>
        simp only [Option.mapM, hp] at h
        cases h
      | error e =>
        simp only [Option.mapM, hp] at h
        cases h
        exact hname hp

/-- **The outcomes of a step.** -/
theorem step_spec (s : Settings Rat) (r : Run Rat) :
    match r.step s with
    | .optimal => r.EndsWith s none
    | .pivoted next => ∃ row col, Pivoted s r next row col
    | .failed reached cause => IsEnding (some cause) →
        reached = r ∧ (∃ name, cause = .unbounded name) ∧ r.EndsWith s (some cause) := by
  rw [step]
  cases he : r.tableau.enteringColumn s.entering with
  | error cause =>
    have hs := r.tableau.enteringColumn_spec s.entering
    rw [he] at hs
    obtain ⟨rfl, -⟩ := hs
    exact False.elim
  | ok entering =>
    cases entering with
    | none => exact he
    | some col =>
      simp only
      cases hl : r.tableau.leavingRow col s.ratio with
      | none =>
        simp only
        cases r.tableau.headers[col]? with
        | some name => exact fun _ => ⟨rfl, ⟨name, rfl⟩, col, he, hl⟩
        | none => exact False.elim
      | some row =>
        simp only [pivotOn]
        cases hb : (r.tableau.basis[row]?).bind (itemAt? r.tableau.headers) with
        | none => exact False.elim
        | some leaving =>
          simp only
          rcases tryPivot_cases r.tableau row col with ⟨ht, h0⟩ | ⟨t', cause, ht, hc⟩
          · rw [ht]
            simp only
            cases hi : (r.tableau.pivot row col).snapshot r.iterations.length (some (col : Int))
                (some leaving) (some (row : Int)) with
            | ok it => exact ⟨row, col, he, hl, h0, rfl, leaving, it, hb, hi, rfl⟩
            | error cause =>
              rw [snapshot_error hi]
              exact False.elim
          · rw [ht]
            exact fun h => absurd h hc

/-! ## All steps -/

/-- What a run comes to by any number of pivots. -/
def Reaches (s : Settings Rat) : Run Rat → Run Rat → Prop :=
  Relation.ReflTransGen fun r next => ∃ row col, Pivoted s r next row col

namespace Pivoted

variable {row col : Nat} (hp : Pivoted s r next row col) (h : r.tableau.WellShaped)

include hp h

/-- The pivot lies within the tableau. -/
theorem bounds : row < r.tableau.rows.length ∧ col < r.tableau.numColumns := by
  have he := r.tableau.enteringColumn_spec s.entering
  rw [hp.entering] at he
  have hl := h.leavingRow_spec he.2.lt s.ratio
  rw [hp.leavingRow] at hl
  exact ⟨hl.lt, he.2.lt⟩

theorem vec_ne_zero : (r.tableau.rowAt row).vec col ≠ 0 := by
  have hc := (hp.bounds h).2
  rw [← Row.entry_eq_vec (by rw [h.width_rowAt]; omega)]
  exact hp.entry_ne_zero

theorem sameEquations : Tableau.SameEquations r.tableau next.tableau := by
  obtain ⟨hr, hc⟩ := hp.bounds h
  rw [hp.tableau]
  exact h.sameEquations_pivot hr hc (hp.vec_ne_zero h)

end Pivoted

theorem Pivoted.canonical {row col : Nat} (hp : Pivoted s r next row col)
    (h : r.tableau.Canonical) : next.tableau.Canonical := by
  obtain ⟨hr, hc⟩ := hp.bounds h.toWellShaped
  rw [hp.tableau]
  exact h.pivot hr hc (hp.vec_ne_zero h.toWellShaped)

namespace Reaches

/-- A run keeps the decision variables of its tableau, whatever shape that has. -/
theorem numDecision (hr : Reaches s r reached) :
    reached.tableau.numDecision = r.tableau.numDecision := by
  induction hr with
  | refl => rfl
  | tail _ hstep ih =>
    obtain ⟨row, col, hp⟩ := hstep
    rw [hp.tableau]
    exact ih

/-- **Every tableau of a run is canonical.** -/
theorem canonical (hr : Reaches s r reached) (h : r.tableau.Canonical) :
    reached.tableau.Canonical := by
  induction hr with
  | refl => exact h
  | tail _ hstep ih =>
    obtain ⟨row, col, hp⟩ := hstep
    exact hp.canonical ih

/-- **Every tableau of a run stands for the same equations.** -/
theorem sameEquations (hr : Reaches s r reached) (h : r.tableau.Canonical) :
    Tableau.SameEquations r.tableau reached.tableau := by
  induction hr with
  | refl => exact Tableau.SameEquations.refl _
  | tail hprev hstep ih =>
    obtain ⟨row, col, hp⟩ := hstep
    exact ih.trans (hp.sameEquations (canonical hprev h).toWellShaped)

/-- **Right sides stay nonnegative** when every positive entry takes part in the ratio test. -/
theorem rhs_nonneg (hr : Reaches s r reached) (h : r.tableau.Canonical) (hs : s.ratio = 0)
    (hf : ∀ q ∈ r.tableau.rows, 0 ≤ q.rhs) : ∀ q ∈ reached.tableau.rows, 0 ≤ q.rhs := by
  induction hr with
  | refl => exact hf
  | tail hprev hstep ih =>
    obtain ⟨row, col, hp⟩ := hstep
    have hw := (canonical hprev h).toWellShaped
    rw [hp.tableau]
    exact hw.rhs_pivot_nonneg (hp.bounds hw).2 (hs ▸ hp.leavingRow) ih

end Reaches

/-! ## Enough steps -/

section

variable {α : Type} [Scalar α] {s : Settings α} {r next : Run α} {fuel : Nat}

/-- Some steps are enough to end a run: two more than the pivots that its limit still allows, or one
where no column may enter. -/
def HasSteps (s : Settings α) (fuel : Nat) (r : Run α) : Prop :=
  (2 ≤ fuel ∧ s.maxIterations.steps + 2 ≤ r.iterations.length + fuel) ∨
    (1 ≤ fuel ∧ r.tableau.enteringColumn s.entering = .ok none)

theorem hasSteps_finish (s : Settings α) (r : Run α) :
    r.HasSteps s (s.maxIterations.steps + 2) :=
  .inl ⟨Nat.le_add_left _ _, Nat.le_add_left _ _⟩

theorem not_hasSteps_zero : ¬r.HasSteps s 0 := by
  rintro (⟨h, -⟩ | ⟨h, -⟩)
  · exact absurd h (by decide)
  · exact absurd h (by decide)

theorem length_iterations_of_step (h : r.step s = .pivoted next) :
    next.iterations.length = r.iterations.length + 1 := by
  obtain ⟨row, col, h⟩ : ∃ row col, r.pivotOn row col = .pivoted next := by
    unfold step at h
    split at h
    · cases h
    · cases h
    · split at h
      · exact ⟨_, _, h⟩
      · split at h <;> cases h
  unfold pivotOn at h
  split at h
  · cases h
  · split at h
    · cases h
    · split at h
      · cases h
        exact List.length_append
      · cases h

/-- A run that goes on has enough steps left. Before its limit it uses up one of those that the
limit allows. At its limit it goes on only where no column may enter. -/
theorem HasSteps.pivoted (h : r.HasSteps s (fuel + 1)) (hstep : r.step s = .pivoted next)
    (hs : ¬next.isStuck s = true) : next.HasSteps s fuel := by
  rcases h with ⟨htwo, hle⟩ | ⟨-, hnone⟩
  · have hlength := length_iterations_of_step hstep
    by_cases hreached : s.maxIterations.reachedBy next.pivots = true
    · rw [isStuck, hreached, Bool.true_and] at hs
      refine .inr ⟨by omega, ?_⟩
      split at hs
      · assumption
      · exact absurd rfl hs
    · have hpivots : next.pivots = r.iterations.length := by
        rw [pivots, hlength, Nat.add_sub_cancel]
      have hlt : next.pivots < s.maxIterations.steps :=
        Nat.lt_of_not_le (mt Limit.reachedBy_of_steps_le hreached)
      exact .inl ⟨by omega, by omega⟩
  · rw [step, hnone] at hstep
    cases hstep

/-- More steps than enough change nothing. The induction is on those that are enough. -/
theorem HasSteps.loop_add (h : r.HasSteps s fuel) (more : Nat) :
    loop s (fuel + more) r = loop s fuel r := by
  induction fuel generalizing r with
  | zero => exact absurd h not_hasSteps_zero
  | succ fuel ih =>
    rw [Nat.add_right_comm, loop, loop]
    cases hstep : r.step s with
    | pivoted next =>
      simp only
      by_cases hs : next.isStuck s = true
      · rw [if_pos hs, if_pos hs]
      · rw [if_neg hs, if_neg hs]
        exact ih (h.pivoted hstep hs)
    | _ => rfl

/-- **A run does not depend on the steps that it is given,** as long as they are no fewer than those
that its limit grants. -/
theorem loop_eq_finish (hfuel : s.maxIterations.steps + 2 ≤ fuel) : loop s fuel r = r.finish s := by
  obtain ⟨more, rfl⟩ := Nat.exists_eq_add_of_le hfuel
  exact (hasSteps_finish s r).loop_add more

end

/-! ## The end -/

/-- What the steps of a run stop with after the last state that they reach. -/
inductive Stops (s : Settings Rat) (last : Run Rat) : Run Rat × Option Error → Prop where
  /-- No column may enter. -/
  | optimal (h : last.step s = .optimal) : Stops s last (last, none)
  /-- The next step fails. -/
  | failed {reached : Run Rat} {cause : Error} (h : last.step s = .failed reached cause) :
    Stops s last (reached, some cause)
  /-- The limit on pivots is reached with a column still to enter. -/
  | limit (h : last.isStuck s = true) : Stops s last (last, some (.noConvergence s.maxIterations))

private theorem loop_stops {fuel : Nat} (h : r.HasSteps s fuel) :
    ∃ last, Reaches s r last ∧ Stops s last (loop s fuel r) := by
  induction fuel generalizing r with
  | zero => exact absurd h not_hasSteps_zero
  | succ fuel ih =>
    have hs := step_spec s r
    rw [loop]
    cases hstep : r.step s with
    | optimal => exact ⟨r, .refl, .optimal hstep⟩
    | failed reached cause => exact ⟨r, .refl, .failed hstep⟩
    | pivoted next =>
      rw [hstep] at hs
      simp only
      split
      · rename_i hstuck
        exact ⟨next, .single hs, .limit hstuck⟩
      · rename_i hstuck
        obtain ⟨last, hr, hstops⟩ := ih (h.pivoted hstep hstuck)
        exact ⟨last, .head hs hr, hstops⟩

/-- **How a run stops.** -/
theorem finish_stops (s : Settings Rat) (r : Run Rat) :
    ∃ last, Reaches s r last ∧ Stops s last (r.finish s) :=
  loop_stops (hasSteps_finish s r)

/-- **How a run ends** with a solution to read off. -/
theorem finish_spec {stop : Option Error} (h : r.finish s = (reached, stop)) (he : IsEnding stop) :
    Reaches s r reached ∧ reached.EndsWith s stop := by
  obtain ⟨last, hr, hstops⟩ := finish_stops s r
  have hs := step_spec s last
  rw [h] at hstops
  cases hstops with
  | optimal hstep =>
    rw [hstep] at hs
    exact ⟨hr, hs⟩
  | failed hstep =>
    rw [hstep] at hs
    obtain ⟨rfl, -, hend⟩ := hs he
    exact ⟨hr, hend⟩
  | limit _ => exact ⟨hr, trivial⟩

end Run

end TableauSimplex
