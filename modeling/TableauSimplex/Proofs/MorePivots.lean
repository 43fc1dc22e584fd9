import TableauSimplex.Proofs.Limit
import TableauSimplex.Proofs.Success

/-!
# Greater limits on pivots

Two runs from one tableau that differ in their limits alone make the same pivots as long as both go
on (`Run.loop_le`). The one with the smaller limit is cut off at most: either both end at the same
state for the same cause, or the first one ends for its limit and the second one goes on from there.
So a solve with a greater limit keeps all iterations, and it reports the same solution unless the
first one did not converge (`solve_le`).

* `Settings.SameButLimits`: settings under which two runs are compared.
-/

namespace TableauSimplex

/-- Settings that differ in their limits alone. -/
def Settings.SameButLimits (s₁ s₂ : Settings Rat) : Prop :=
  s₂ = { s₁ with maxIterations := s₂.maxIterations, maxNodes := s₂.maxNodes }

variable {p : Problem Rat} {s s₁ s₂ : Settings Rat}

/-! ## Runs -/

namespace Run

variable {r reached : Run Rat}

/-- A run keeps its records. -/
theorem Reaches.keeps_iterations (hr : Reaches s r reached) :
    r.iterations <+: reached.iterations := by
  induction hr with
  | refl => exact List.prefix_refl _
  | tail _ hstep ih =>
    obtain ⟨row, col, hp⟩ := hstep
    obtain ⟨leaving, it, -, -, hits⟩ := hp.iterations
    rw [hits]
    exact ih.trans (List.prefix_append _ _)

section

variable (hs : s₁.SameButLimits s₂) (hk : s₁.maxIterations.Le s₂.maxIterations)

include hs

/-- A step does not look at the limits. -/
theorem step_congr (r : Run Rat) : r.step s₂ = r.step s₁ := by
  rw [hs]
  rfl

include hk

theorem isStuck_of_le (h : r.isStuck s₂ = true) : r.isStuck s₁ = true := by
  have hentering : s₂.entering = s₁.entering := by rw [hs]
  rw [isStuck, hentering, Bool.and_eq_true] at h
  rw [isStuck, Bool.and_eq_true]
  exact ⟨hk.reachedBy _ h.1, h.2⟩

/-- **Two runs with limits in order.** The induction is on the steps that are left of the first one.
As long as no limit is reached both runs are at the same state. -/
theorem loop_le (h : r.tableau.WellShaped) {fuel₁ fuel₂ : Nat} (hfuel : fuel₁ ≤ fuel₂) :
    loop s₂ fuel₂ r = loop s₁ fuel₁ r ∨
      (loop s₁ fuel₁ r).2 = some (.noConvergence s₁.maxIterations) ∧
        (loop s₁ fuel₁ r).1.iterations <+: (loop s₂ fuel₂ r).1.iterations := by
  induction fuel₁ generalizing fuel₂ r with
  | zero => exact .inr ⟨rfl, (reaches_loop h fuel₂).keeps_iterations⟩
  | succ fuel₁ ih =>
    obtain ⟨fuel₂, rfl⟩ := Nat.exists_eq_succ_of_ne_zero (by omega : fuel₂ ≠ 0)
    have hspec := step_spec s₁ r
    rw [loop, loop, step_congr hs]
    cases hstep : r.step s₁ with
    | optimal => exact .inl rfl
    | failed reached cause => exact .inl rfl
    | pivoted next =>
      rw [hstep] at hspec
      obtain ⟨row, col, hp⟩ := hspec
      have hnext := hp.wellShaped h
      simp only
      by_cases hstuck : next.isStuck s₁ = true
      · rw [if_pos hstuck]
        refine .inr ⟨rfl, ?_⟩
        split
        · exact List.prefix_refl _
        · exact (reaches_loop hnext fuel₂).keeps_iterations
      · rw [if_neg hstuck, if_neg (mt (isStuck_of_le hs hk) hstuck)]
        exact ih hnext (Nat.le_of_succ_le_succ hfuel)

/-- **A run with a greater limit** ends as the one with the smaller limit does, unless the smaller
limit cut that one off. -/
theorem finish_le (h : r.tableau.WellShaped) :
    r.finish s₂ = r.finish s₁ ∨
      (r.finish s₁).2 = some (.noConvergence s₁.maxIterations) ∧
        (r.finish s₁).1.iterations <+: (r.finish s₂).1.iterations :=
  loop_le hs hk h (Nat.add_le_add_right hk.steps 2)

end

/-- With the same limit on pivots two runs are the same. -/
theorem finish_congr (hs : s₁.SameButLimits s₂) (hk : s₂.maxIterations = s₁.maxIterations)
    (r : Run Rat) : r.finish s₂ = r.finish s₁ := by
  rw [finish, finish, hk]
  generalize s₁.maxIterations.steps + 2 = fuel
  induction fuel generalizing r with
  | zero => rw [loop, loop, hk]
  | succ fuel ih =>
    have hstuck : ∀ next : Run Rat, next.isStuck s₂ = next.isStuck s₁ := fun next => by
      have hentering : s₂.entering = s₁.entering := by rw [hs]
      rw [isStuck, isStuck, hk, hentering]
    rw [loop, loop, step_congr hs, hk]
    cases r.step s₁ with
    | pivoted next => simp only [hstuck, ih]
    | _ => rfl

end Run

/-! ## Solves -/

/-- A solve looks at the limits in its run alone. -/
theorem solveLogged_congr (hs : s₁.SameButLimits s₂) (withGraph : Bool)
    (h : ∀ t first, Tableau.ofProblem p s₁.penalty = .ok t → Run.start t = .ok first →
      first.finish s₂ = first.finish s₁) :
    solveLogged p s₂ withGraph = solveLogged p s₁ withGraph := by
  have hpenalty : s₂.penalty = s₁.penalty := by rw [hs]
  have hstatus : ∀ (r : Run Rat) stop, r.status s₂ stop = r.status s₁ stop := fun r stop => by
    rw [hs]
    cases stop with
    | none => rfl
    | some cause => cases cause <;> rfl
  have hother : ∀ (r : Run Rat) status, r.otherOptimum s₂ status = r.otherOptimum s₁ status :=
    fun r status => by
      rw [hs]
      cases status <;> rfl
  have hgraph : ∀ values z, Plane.graph p values z s₂ = Plane.graph p values z s₁ :=
    fun values z => by
      rw [hs]
      rfl
  unfold solveLogged
  rw [hpenalty]
  cases ht : Tableau.ofProblem p s₁.penalty with
  | error cause => simp only [bind, Except.bind]
  | ok t =>
    cases hfirst : Run.start t with
    | error cause => simp only [bind, Except.bind, hfirst]
    | ok first =>
      simp only [bind, Except.bind, hfirst, h t first ht hfirst, hstatus, hother, hgraph]

/-- **A solve with a greater limit on pivots** keeps all iterations, and it reports the same
solution where the smaller limit was enough. -/
theorem solve_le (hp : p.Regular) (hc : p.HasColumn) (hratio : 0 ≤ s₁.ratio)
    (hs : s₁.SameButLimits s₂) (hk : s₁.maxIterations.Le s₂.maxIterations) (withGraph : Bool) :
    ∃ sol₁ sol₂, solve p s₁ withGraph = .ok sol₁ ∧ solve p s₂ withGraph = .ok sol₂ ∧
      sol₁.iterations <+: sol₂.iterations ∧ (sol₁.status ≠ .nonConvergent → sol₂ = sol₁) := by
  have hratio₂ : 0 ≤ s₂.ratio := by rwa [hs]
  obtain ⟨sol₁, hsol₁⟩ := exists_solve hp hc hratio withGraph
  obtain ⟨sol₂, hsol₂⟩ := exists_solve hp hc hratio₂ withGraph
  refine ⟨sol₁, sol₂, hsol₁, hsol₂, ?_⟩
  obtain ⟨first, last₁, stop₁, hrun₁⟩ := exists_fromRun hsol₁
  obtain ⟨first', last₂, stop₂, hrun₂⟩ := exists_fromRun hsol₂
  obtain ⟨t, ht, hfirst⟩ := hrun₁.start
  obtain rfl : first' = first := by
    obtain ⟨t', ht', hfirst'⟩ := hrun₂.start
    have hpenalty : s₂.penalty = s₁.penalty := by rw [hs]
    rw [hpenalty] at ht'
    cases ht.symm.trans ht'
    exact Except.ok.inj (hfirst'.symm.trans hfirst)
  have hw : first'.tableau.WellShaped := by
    rw [hrun₁.tableau_first hp]
    exact Tableau.wellShaped_start hp
  rcases Run.finish_le hs hk hw with hsame | ⟨hstop, hkept⟩
  · have hlogged : solveLogged p s₂ withGraph = solveLogged p s₁ withGraph :=
      solveLogged_congr hs withGraph fun t' first hstart hfirst' => by
        cases ht.symm.trans hstart
        cases hfirst.symm.trans hfirst'
        exact hsame
    obtain rfl : sol₂ = sol₁ := by
      rw [solve, hlogged] at hsol₂
      exact Except.ok.inj (hsol₂.symm.trans hsol₁)
    exact ⟨List.prefix_refl _, fun _ => rfl⟩
  · rw [hrun₁.finish, hrun₂.finish] at hkept
    rw [hrun₁.finish] at hstop
    obtain rfl : stop₁ = some (.noConvergence s₁.maxIterations) := hstop
    rw [hrun₁.iterations, hrun₂.iterations]
    exact ⟨hkept, fun hne => absurd (Except.ok.inj hrun₁.status).symm hne⟩

end TableauSimplex
