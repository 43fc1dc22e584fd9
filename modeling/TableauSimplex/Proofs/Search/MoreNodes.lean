import TableauSimplex.Proofs.MorePivots
import TableauSimplex.Proofs.Search.BoundTest

/-!
# Greater limits on nodes

Two searches of one program that differ in their limits on nodes alone take the same turns as long
as both go on (`Search.loop_le`). Either both end at the same state, or the smaller limit stopped
the first one and the second one goes on from there. The best value never gets worse on the way
(`Search.exists_best_loop`), so that a greater limit never loses a candidate (`searchInteger_le`).

With the limit on pivots of a single solve this is `greater_limits`.
-/

namespace TableauSimplex

variable {p : Problem Rat} {s s₁ s₂ : Settings Rat}

namespace Search

variable {st : Search Rat}

/-- **The best value of a search** never gets worse. -/
theorem exists_best_loop {b : Rat} (hb : st.best = some b) (fuel : Nat) :
    ∃ b', (loop p s fuel st).1.best = some b' ∧ p.sense.orient b ≤ p.sense.orient b' := by
  induction fuel generalizing st b with
  | zero => exact ⟨b, hb, le_rfl⟩
  | succ fuel ih =>
    rw [loop]
    cases hstep : st.step p s with
    | running next =>
      obtain ⟨node, rest, outcome, ha⟩ := advances_of_step hstep
      obtain ⟨b₁, hb₁, hle⟩ := exists_best_of_advances ha hb
      obtain ⟨b₂, hb₂, hle'⟩ := ih hb₁
      exact ⟨b₂, hb₂, hle.trans hle'⟩
    | done final =>
      rcases cases_of_step_done hstep with ⟨-, rfl⟩ | ⟨-, -, events, rfl⟩
      · exact ⟨b, hb, le_rfl⟩
      · exact ⟨b, hb, le_rfl⟩
    | failed reached cause =>
      obtain ⟨node, rest, -, rfl, -⟩ := solveLogged_of_step_failed hstep
      exact ⟨b, hb, le_rfl⟩

/-! ## Two searches -/

section

variable (hs : s₁.SameButLimits s₂) (hpivots : s₂.maxIterations = s₁.maxIterations)

include hs

theorem descend_of_sameButLimits (node : Node Rat) (sol : Solution Rat) (st : Search Rat) :
    descend p s₂ node sol st = descend p s₁ node sol st := by
  rw [hs]
  rfl

include hpivots

/-- A node is expanded without a look at the limit on nodes. -/
theorem expand_of_sameButLimits (node : Node Rat) (st : Search Rat) :
    expand p s₂ node st = expand p s₁ node st := by
  have hsolve := solveLogged_congr (p := { p with constraints := node.constraints }) hs false
    fun _ first _ _ => Run.finish_congr hs hpivots first
  unfold expand
  simp only [hsolve, descend_of_sameButLimits hs]

variable (hn : s₁.maxNodes.Le s₂.maxNodes)

include hn

/-- A turn is the same under both limits, unless the smaller one is reached. -/
theorem step_le (st : Search Rat) : st.step p s₂ = st.step p s₁ ∨
    ∃ events, st.step p s₁ = .done ({ st with isExhausted := true }.note events) := by
  unfold step
  cases st.stack with
  | nil => exact .inl rfl
  | cons node rest =>
    simp only
    by_cases hreached : s₁.maxNodes.reachedBy st.explored = true
    · rw [if_pos hreached]
      exact .inr ⟨_, rfl⟩
    · rw [if_neg hreached, if_neg (mt (hn.reachedBy _) hreached),
        expand_of_sameButLimits hs hpivots]
      exact .inl rfl

/-- **Two searches with limits in order.** The induction is on the turns that are left of the first
one. -/
theorem loop_le {fuel₁ fuel₂ : Nat} (hfuel : fuel₁ ≤ fuel₂) :
    loop p s₂ fuel₂ st = loop p s₁ fuel₁ st ∨
      (loop p s₁ fuel₁ st).1.isExhausted = true ∧
        ∀ b, (loop p s₁ fuel₁ st).1.best = some b →
          ∃ b', (loop p s₂ fuel₂ st).1.best = some b' ∧ p.sense.orient b ≤ p.sense.orient b' := by
  induction fuel₁ generalizing fuel₂ st with
  | zero =>
    refine .inr ⟨rfl, fun b hb => ?_⟩
    exact exists_best_loop (show st.best = some b from hb) fuel₂
  | succ fuel₁ ih =>
    obtain ⟨fuel, rfl⟩ := Nat.exists_eq_succ_of_ne_zero (by omega : fuel₂ ≠ 0)
    rcases step_le hs hpivots hn (p := p) st with hstep | ⟨events, hdone⟩
    · rw [loop, loop, hstep]
      cases st.step p s₁ with
      | running next => exact ih (Nat.le_of_succ_le_succ hfuel)
      | done final => exact .inl rfl
      | failed reached cause => exact .inl rfl
    · have hloop : loop p s₁ (fuel₁ + 1) st =
          ({ st with isExhausted := true }.note events, none) := by
        rw [loop, hdone]
      rw [hloop]
      refine .inr ⟨rfl, fun b hb => ?_⟩
      exact exists_best_loop (show st.best = some b from hb) (fuel + 1)

/-- **A search with a greater limit** ends as the one with the smaller limit does, unless the
smaller limit stopped that one. Then it has a value at least as good. -/
theorem run_le :
    run p s₂ = run p s₁ ∨ (run p s₁).1.isExhausted = true ∧
      ∀ b, (run p s₁).1.best = some b →
        ∃ b', (run p s₂).1.best = some b' ∧ p.sense.orient b ≤ p.sense.orient b' :=
  loop_le hs hpivots hn (Nat.add_le_add_right hn.steps 1)

end

end Search

/-! ## Answers -/

/-- Where two searches end at the same state their results are the same. -/
theorem searchInteger_congr (hs : s₁.SameButLimits s₂) (h : Search.run p s₂ = Search.run p s₁) :
    searchInteger p s₂ = searchInteger p s₁ := by
  have hgraph : ∀ root best : Solution Rat,
      withIntegerGraph p s₂ root best = withIntegerGraph p s₁ root best := fun root best => by
    rw [hs]
    rfl
  unfold searchInteger
  simp only [h, hgraph]

/-- **A search with a greater limit on nodes** reports at least as good a value, and where the
smaller limit did not stop the search it finds the same. -/
theorem searchInteger_le (hp : p.Regular) (hc : p.HasColumn) (hratio : 0 ≤ s₁.ratio)
    (hs : s₁.SameButLimits s₂) (hpivots : s₂.maxIterations = s₁.maxIterations)
    (hn : s₁.maxNodes.Le s₂.maxNodes) :
    ∃ answer₁ answer₂, (searchInteger p s₁).answer = .ok answer₁ ∧
      (searchInteger p s₂).answer = .ok answer₂ ∧
      ((searchInteger p s₁).search.isExhausted = false →
        searchInteger p s₂ = searchInteger p s₁) ∧
      ∀ best₁ ∈ answer₁, ∃ best₂ ∈ answer₂,
        p.sense.orient best₁.objectiveValue ≤ p.sense.orient best₂.objectiveValue := by
  have hratio₂ : 0 ≤ s₂.ratio := by rwa [hs]
  obtain ⟨answer₁, h₁⟩ := exists_answer_eq_ok hp hc hratio
  obtain ⟨answer₂, h₂⟩ := exists_answer_eq_ok hp hc hratio₂
  refine ⟨answer₁, answer₂, h₁, h₂, ?_⟩
  rcases Search.run_le (p := p) hs hpivots hn with hsame | ⟨hexhausted, hbest⟩
  · have hresult := searchInteger_congr hs hsame
    rw [hresult, h₁] at h₂
    obtain rfl := Except.ok.inj h₂
    exact ⟨fun _ => hresult, fun best hb => ⟨best, hb, le_rfl⟩⟩
  · obtain ⟨final₁, hrun₁, hstopped, hanswers₁⟩ := exists_of_answer h₁
    obtain ⟨final₂, hrun₂, -, hanswers₂⟩ := exists_of_answer h₂
    rw [hrun₁] at hexhausted hbest
    rw [hrun₂] at hbest
    refine ⟨fun hends => ?_, fun best₁ hbest₁ => ?_⟩
    · rw [hstopped, hexhausted] at hends
      cases hends
    · obtain rfl : answer₁ = some best₁ := hbest₁
      obtain ⟨sol₁, hsol₁, -, hz₁, -⟩ := hanswers₁
      obtain ⟨z, hz, hle⟩ := hbest sol₁.objectiveValue (by rw [Search.best, hsol₁]; rfl)
      obtain ⟨sol₂, hsol₂, rfl⟩ := Option.map_eq_some_iff.mp hz
      cases answer₂ with
      | none => cases hsol₂.symm.trans hanswers₂
      | some best₂ =>
        obtain ⟨sol, hsol, -, hz₂, -⟩ := hanswers₂
        cases hsol₂.symm.trans hsol
        exact ⟨best₂, rfl, by rwa [hz₁, hz₂]⟩

/-- **Greater limits never lose work.** With a greater limit on pivots a solve keeps all iterations,
and where the smaller limit was enough it reports the same solution. With a greater limit on nodes
the search for integer solutions comes to the same result, to the state that it ends in, where the
smaller limit did not stop it, and in any case to a value that is at least as good. -/
theorem greater_limits (hp : p.Regular) (hc : p.HasColumn) (hratio : 0 ≤ s.ratio)
    {k₁ k₂ n₁ n₂ : Limit} (hk : k₁.Le k₂) (hn : n₁.Le n₂) (withGraph : Bool) :
    (∃ sol₁ sol₂, solve p { s with maxIterations := k₁ } withGraph = .ok sol₁ ∧
      solve p { s with maxIterations := k₂ } withGraph = .ok sol₂ ∧
      sol₁.iterations <+: sol₂.iterations ∧ (sol₁.status ≠ .nonConvergent → sol₂ = sol₁)) ∧
    ∃ answer₁ answer₂, (searchInteger p { s with maxNodes := n₁ }).answer = .ok answer₁ ∧
      (searchInteger p { s with maxNodes := n₂ }).answer = .ok answer₂ ∧
      ((searchInteger p { s with maxNodes := n₁ }).search.isExhausted = false →
        searchInteger p { s with maxNodes := n₂ } = searchInteger p { s with maxNodes := n₁ }) ∧
      ∀ best₁ ∈ answer₁, ∃ best₂ ∈ answer₂,
        p.sense.orient best₁.objectiveValue ≤ p.sense.orient best₂.objectiveValue := by
  have hpivots : Settings.SameButLimits { s with maxIterations := k₁ }
      { s with maxIterations := k₂ } := rfl
  have hnodes : Settings.SameButLimits { s with maxNodes := n₁ } { s with maxNodes := n₂ } := rfl
  refine ⟨solve_le hp hc ?_ hpivots hk withGraph, searchInteger_le hp hc ?_ hnodes rfl hn⟩
  · exact hratio
  · exact hratio

/-- The best integer point is not the first one that a search comes to. -/
def secondBest : Problem Rat where
  sense := .maximize
  names := [.text "x", .text "y"]
  objective := [5, 4]
  constraints := [⟨[6, 4], .atMost, 24⟩, ⟨[1, 2], .atMost, 6⟩]

/-- One pivot is not enough for the relaxation, and two nodes lead to an integer point that is not
the best one. -/
theorem greater_limits_secondBest :
    ∃ sol₁ sol₂ best₁ best₂, solve secondBest { maxIterations := .whole 1 } false = .ok sol₁ ∧
      solve secondBest { maxIterations := .whole 100 } false = .ok sol₂ ∧
      sol₁.iterations <+: sol₂.iterations ∧
      (searchInteger secondBest { maxNodes := .whole 2 }).answer = .ok (some best₁) ∧
      best₁.objectiveValue = 18 ∧
      (searchInteger secondBest { maxNodes := .whole 100 }).answer = .ok (some best₂) ∧
      18 ≤ best₂.objectiveValue := by
  have hk : Limit.Le (.whole 1) (.whole 100) := Limit.le_of_value (by decide +kernel)
  have hn : Limit.Le (.whole 2) (.whole 100) := Limit.le_of_value (by decide +kernel)
  obtain ⟨⟨sol₁, sol₂, h₁, h₂, hkept, -⟩, answer₁, answer₂, hanswer₁, hanswer₂, -, hbest⟩ :=
    greater_limits (p := secondBest) (s := {}) (by decide +kernel) (.inl (by decide))
      (by decide +kernel) hk hn false
  obtain ⟨best₁, hfirst, -, hz⟩ :=
    exists_answer secondBest { maxNodes := .whole 2 } .nodeLimit 18 (by decide +kernel)
  cases hanswer₁.symm.trans hfirst
  obtain ⟨best₂, rfl, hle⟩ := hbest best₁ rfl
  rw [hz] at hle
  exact ⟨sol₁, sol₂, best₁, best₂, h₁, h₂, hkept, hanswer₁, hz, hanswer₂, hle⟩

end TableauSimplex
