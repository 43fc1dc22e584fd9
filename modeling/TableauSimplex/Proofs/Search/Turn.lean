import TableauSimplex.Proofs.Except
import TableauSimplex.Proofs.Limit
import TableauSimplex.Proofs.Search.Split

/-!
# Turns of a search

What one turn of a search does, and how a search ends.

* `Search.expand_of_ok`: a node whose relaxation is solved is dropped, beaten, or gone on from.
* `Search.advances_of_step`: a turn that goes on takes the next node off the stack. What becomes of
  the node (`Outcome`) settles the next stack and the next candidate (`Search.Advances`).
* `Search.Reaches`: what a search comes to by any number of turns. `Search.Expands` says that a
  search solves the relaxation of a node on its way.
* `Search.HasTurns`: some turns are enough to end a search. Those that its limit grants are, and
  more of them change nothing (`Search.loop_eq_run`).
* `Search.run_stops`: what stops a search. One that does not fail ends at a state it reaches, with
  an empty stack unless the limit on nodes stopped it (`Search.run_spec`).
* `exists_of_answer`: the answer is the last candidate.
-/

namespace TableauSimplex

/-! ## Nodes that are expanded -/

namespace Search

section

variable {α : Type} [Scalar α] {p : Problem α} {s : Settings α} {st : Search α} {node : Node α}

/-- The state after a relaxation is solved. -/
def solved (st : Search α) (sol : Solution α) (events : List (Event α)) : Search α :=
  { st with root := st.root.or (some sol) }.note events

theorem expand_of_error {cause : Error}
    (h : solveLogged { p with constraints := node.constraints } s false = .error cause) :
    expand p s node st = .failed st cause := by
  unfold expand
  rw [h]

/-- **What becomes of a node** whose relaxation is solved. -/
theorem expand_of_ok {sol : Solution α} {events : List (Event α)}
    (h : solveLogged { p with constraints := node.constraints } s false = .ok (sol, events)) :
    expand p s node st =
      if sol.status ≠ .optimal then
        .running ((st.solved sol events).note [.pruned st.explored sol.status])
      else if p.sense.improves sol.objectiveValue st.best = true then
        descend p s node sol (st.solved sol events)
      else .running (st.solved sol events) := by
  have hbest : ({ st with root := st.root.or (some sol) }.note events).best = st.best := rfl
  unfold expand
  rw [h]
  simp only [Solution.isOptimal, hbest]
  by_cases ho : sol.status = .optimal
  · cases p.sense.improves sol.objectiveValue st.best <;> simp [ho, solved]
  · simp [ho, solved, note]

end

variable {p : Problem Rat} {s : Settings Rat}

/-! ## Outcomes -/

/-- What becomes of the node that a turn takes off the stack. -/
inductive Outcome where
  /-- The optimum of its parent does not improve on the best candidate. -/
  | skipped
  /-- Its relaxation is not solved to an optimum. -/
  | dropped (sol : Solution Rat)
  /-- The optimum of its relaxation does not improve on the best candidate. -/
  | beaten (sol : Solution Rat)
  /-- The optimum of its relaxation is the new best candidate. -/
  | accepted (sol : Solution Rat)
  /-- It is split on a variable. -/
  | split (sol : Solution Rat) (j : Nat)

namespace Outcome

/-- The solution of the relaxation, if it was solved. -/
def solution? : Outcome → Option (Solution Rat)
  | skipped => none
  | dropped sol | beaten sol | accepted sol | split sol _ => some sol

/-- The nodes that are put on the stack. -/
def halves (p : Problem Rat) (node : Node Rat) : Outcome → List (Node Rat)
  | split sol j =>
    [node.high p sol.objectiveValue j (sol.values.getD j 0),
      node.low p sol.objectiveValue j (sol.values.getD j 0)]
  | _ => []

/-- The best candidate after the node. -/
def incumbent (before : Option (Solution Rat)) : Outcome → Option (Solution Rat)
  | accepted sol => some sol
  | _ => before

/-- What makes the outcome of a node whose relaxation was solved. -/
def Fits (p : Problem Rat) (s : Settings Rat) (best : Option Rat) : Outcome → Prop
  | skipped => True
  | dropped sol => sol.status ≠ .optimal
  | beaten sol => sol.status = .optimal ∧ p.sense.improves sol.objectiveValue best = false
  | accepted sol => sol.status = .optimal ∧ p.sense.improves sol.objectiveValue best = true ∧
      mostFractional sol.values s.integrality = .ok none
  | split sol j => sol.status = .optimal ∧ p.sense.improves sol.objectiveValue best = true ∧
      mostFractional sol.values s.integrality = .ok (some j)

end Outcome

variable {st next final : Search Rat} {node : Node Rat} {rest : List (Node Rat)}
  {outcome : Outcome} {sol : Solution Rat}

/-! ## One turn -/

/-- The second state is the first after an outcome for a node that was taken off the stack. -/
structure Settles (p : Problem Rat) (s : Settings Rat) (st : Search Rat) (node : Node Rat)
    (outcome : Outcome) (next : Search Rat) : Prop where
  solves : ∀ sol, outcome.solution? = some sol → solve (node.program p) s false = .ok sol
  fits : outcome.Fits p s st.best
  stack : next.stack = outcome.halves p node ++ st.stack
  explored : next.explored = st.explored
  isExhausted : next.isExhausted = st.isExhausted
  root : next.root = st.root.or outcome.solution?
  incumbent : next.incumbent = outcome.incumbent st.incumbent

/-- The state after the next node is taken off the stack. -/
def popped (st : Search Rat) (rest : List (Node Rat)) : Search Rat :=
  { st with stack := rest, explored := st.explored + 1 }

/-- The second state is the first after a turn with an outcome for the next node. -/
structure Advances (p : Problem Rat) (s : Settings Rat) (st : Search Rat) (node : Node Rat)
    (rest : List (Node Rat)) (outcome : Outcome) (next : Search Rat) : Prop where
  stack : st.stack = node :: rest
  hasRoom : s.maxNodes.reachedBy st.explored = false
  admits : st.admits p node = outcome.solution?.isSome
  settles : Settles p s (st.popped rest) node outcome next

theorem solve_of_solveLogged {q : Problem Rat} {events : List (Event Rat)}
    (h : solveLogged q s false = .ok (sol, events)) : solve q s false = .ok sol := by
  rw [solve, h]
  rfl

/-- An optimum that improves on the best candidate is accepted or split on a variable. -/
private theorem settles_of_descend {events : List (Event Rat)}
    (hsol : solve (node.program p) s false = .ok sol) (hoptimal : sol.status = .optimal)
    (himproves : p.sense.improves sol.objectiveValue st.best = true)
    (h : descend p s node sol (st.solved sol events) = .running next) :
    ∃ outcome, outcome.solution? = some sol ∧ Settles p s st node outcome next := by
  have hsolves : ∀ sol', some sol = some sol' → solve (node.program p) s false = .ok sol' := by
    rintro _ ⟨⟩
    exact hsol
  rw [descend] at h
  cases hfound : mostFractional sol.values s.integrality with
  | error why =>
    rw [hfound] at h
    cases h
  | ok found =>
    rw [hfound] at h
    cases found with
    | none =>
      cases h
      exact ⟨.accepted sol, rfl, hsolves, ⟨hoptimal, himproves, hfound⟩, rfl, rfl, rfl, rfl, rfl⟩
    | some j =>
      simp only [split_eq] at h
      cases h
      exact ⟨.split sol j, rfl, hsolves, ⟨hoptimal, himproves, hfound⟩, rfl, rfl, rfl, rfl, rfl⟩

/-- A node that is expanded has its relaxation solved. -/
private theorem settles_of_expand (h : expand p s node st = .running next) :
    ∃ outcome, outcome.solution?.isSome = true ∧ Settles p s st node outcome next := by
  cases hlogged : solveLogged { p with constraints := node.constraints } s false with
  | error cause =>
    rw [expand_of_error hlogged] at h
    cases h
  | ok result =>
    obtain ⟨sol, events⟩ := result
    have hsol : solve (node.program p) s false = .ok sol := solve_of_solveLogged hlogged
    have hsolves : ∀ sol', some sol = some sol' → solve (node.program p) s false = .ok sol' := by
      rintro _ ⟨⟩
      exact hsol
    rw [expand_of_ok hlogged] at h
    split at h
    · rename_i hstatus
      cases h
      exact ⟨.dropped sol, rfl, hsolves, hstatus, rfl, rfl, rfl, rfl, rfl⟩
    · rename_i hoptimal
      have hoptimal := not_not.mp hoptimal
      split at h
      · rename_i himproves
        obtain ⟨outcome, hsome, hsettles⟩ := settles_of_descend hsol hoptimal himproves h
        exact ⟨outcome, by rw [hsome]; rfl, hsettles⟩
      · rename_i hnot
        cases h
        exact ⟨.beaten sol, rfl, hsolves, ⟨hoptimal, Bool.eq_false_of_not_eq_true hnot⟩, rfl, rfl,
          rfl, rfl, rfl⟩

/-- **What a turn does** when the search goes on after it. -/
theorem advances_of_step (h : st.step p s = .running next) :
    ∃ node rest outcome, Advances p s st node rest outcome next := by
  rw [step] at h
  cases hstack : st.stack with
  | nil =>
    rw [hstack] at h
    cases h
  | cons node rest =>
    rw [hstack] at h
    simp only at h
    split at h
    · cases h
    · rename_i hroom
      have hroom := Bool.eq_false_of_not_eq_true hroom
      split at h
      · rename_i hadmits
        obtain ⟨outcome, hsome, hsettles⟩ := settles_of_expand h
        exact ⟨node, rest, outcome, hstack, hroom, hadmits.trans hsome.symm, hsettles⟩
      · rename_i hadmits
        cases h
        refine ⟨node, rest, .skipped, hstack, hroom, Bool.eq_false_of_not_eq_true hadmits, ?_,
          trivial, rfl, rfl, rfl, Option.or_none.symm, rfl⟩
        rintro _ ⟨⟩

/-- A node that is expanded does not end the search. -/
private theorem expand_ne_done (p : Problem Rat) (s : Settings Rat) (node : Node Rat)
    (st final : Search Rat) : expand p s node st ≠ .done final := by
  intro h
  cases hlogged : solveLogged { p with constraints := node.constraints } s false with
  | error cause =>
    rw [expand_of_error hlogged] at h
    cases h
  | ok result =>
    rw [expand_of_ok hlogged] at h
    split at h
    · cases h
    · split at h
      · rw [descend] at h
        split at h
        · cases h
        · cases h
        · simp only [split_eq] at h
          cases h
      · cases h

/-- **What ends a search**: an empty stack or the limit on nodes. -/
theorem cases_of_step_done (h : st.step p s = .done final) :
    (st.stack = [] ∧ final = st) ∨
      (st.stack ≠ [] ∧ s.maxNodes.reachedBy st.explored = true ∧
        ∃ events, final = { st with isExhausted := true }.note events) := by
  rw [step] at h
  cases hstack : st.stack with
  | nil =>
    rw [hstack] at h
    cases h
    exact .inl ⟨rfl, rfl⟩
  | cons node rest =>
    rw [hstack] at h
    simp only at h
    split at h
    · rename_i hroom
      cases h
      exact .inr ⟨List.cons_ne_nil _ _, hroom, _, rfl⟩
    · split at h
      · exact absurd h (expand_ne_done _ _ _ _ _)
      · cases h

/-- An optimum can be split or is integral. -/
private theorem descend_ne_failed (p : Problem Rat) (s : Settings Rat) (node : Node Rat)
    (sol : Solution Rat) (st reached : Search Rat) (cause : Error) :
    descend p s node sol st ≠ .failed reached cause := by
  intro h
  obtain ⟨found, hfound⟩ := exists_mostFractional sol.values s.integrality
  rw [descend, hfound] at h
  cases found with
  | none => cases h
  | some j =>
    simp only [split_eq] at h
    cases h

/-- **A turn fails only where a relaxation does.** The node is counted all the same. -/
theorem solveLogged_of_step_failed {reached : Search Rat} {cause : Error}
    (h : st.step p s = .failed reached cause) :
    ∃ node rest, st.stack = node :: rest ∧ reached = st.popped rest ∧
      solveLogged (node.program p) s false = .error cause := by
  rw [step] at h
  cases hstack : st.stack with
  | nil =>
    rw [hstack] at h
    cases h
  | cons node rest =>
    rw [hstack] at h
    simp only at h
    split at h
    · cases h
    · split at h
      · cases hlogged : solveLogged { p with constraints := node.constraints } s false with
        | error cause =>
          rw [expand_of_error hlogged] at h
          cases h
          exact ⟨node, rest, rfl, rfl, hlogged⟩
        | ok result =>
          rw [expand_of_ok hlogged] at h
          split at h
          · cases h
          · split at h
            · exact absurd h (descend_ne_failed _ _ _ _ _ _ _)
            · cases h
      · cases h

/-! ## All turns -/

/-- What a search comes to by any number of turns. -/
def Reaches (p : Problem Rat) (s : Settings Rat) : Search Rat → Search Rat → Prop :=
  Relation.ReflTransGen fun st next => st.step p s = .running next

/-- A search solves the relaxation of a node on its way. -/
structure Expands (p : Problem Rat) (s : Settings Rat) (node : Node Rat) (sol : Solution Rat) :
    Prop where
  onWay : ∃ st rest, Reaches p s (start p) st ∧ st.stack = node :: rest ∧
    s.maxNodes.reachedBy st.explored = false ∧ st.admits p node = true
  solves : solve (node.program p) s false = .ok sol

theorem Advances.expands (ha : Advances p s st node rest outcome next)
    (hr : Reaches p s (start p) st) (hsol : outcome.solution? = some sol) :
    Expands p s node sol where
  onWay := ⟨st, rest, hr, ha.stack, ha.hasRoom, by rw [ha.admits, hsol]; rfl⟩
  solves := ha.settles.solves sol hsol

/-- Whether the relaxation of the next node has one of some statuses at every state of a search, as
far as the fuel goes. -/
def onlyStatuses (p : Problem Rat) (s : Settings Rat) (statuses : List Status) :
    Nat → Search Rat → Bool
  | 0, _ => false
  | fuel + 1, st =>
    (st.stack.head?.all fun node =>
      (solve (node.program p) s false).toOption.all fun sol => statuses.contains sol.status) &&
    match st.step p s with
    | .running next => onlyStatuses p s statuses fuel next
    | _ => true

private theorem Reaches.onlyStatuses {statuses : List Status} {fuel : Nat}
    (hr : Reaches p s st next) (h : st.onlyStatuses p s statuses fuel = true) :
    ∃ fuel, next.onlyStatuses p s statuses fuel = true := by
  induction hr with
  | refl => exact ⟨fuel, h⟩
  | tail _ hstep ih =>
    obtain ⟨fuel, h⟩ := ih
    cases fuel with
    | zero => cases h
    | succ fuel =>
      rw [Search.onlyStatuses, hstep, Bool.and_eq_true] at h
      exact ⟨fuel, h.2⟩

/-- **The statuses of expanded relaxations can be computed.** -/
theorem Expands.status_mem (statuses : List Status) (fuel : Nat) (he : Expands p s node sol)
    (h : (start p).onlyStatuses p s statuses fuel = true) : sol.status ∈ statuses := by
  obtain ⟨st, rest, hr, hstack, -⟩ := he.onWay
  obtain ⟨fuel, h⟩ := hr.onlyStatuses h
  cases fuel with
  | zero => cases h
  | succ fuel =>
    rw [Search.onlyStatuses, hstack, Bool.and_eq_true] at h
    have hnode := h.1
    rw [List.head?_cons, Option.all_some, he.solves] at hnode
    exact List.contains_iff_mem.mp hnode

/-! ## Enough turns -/

/-- Some turns are enough to end a search: one more than the nodes that its limit still allows. -/
structure HasTurns (s : Settings Rat) (fuel : Nat) (st : Search Rat) : Prop where
  pos : 0 < fuel
  steps_lt : s.maxNodes.steps < st.explored + fuel

theorem hasTurns_start (p : Problem Rat) (s : Settings Rat) :
    (start p).HasTurns s (s.maxNodes.steps + 1) :=
  ⟨Nat.succ_pos _, Nat.lt_add_left _ (Nat.lt_succ_self _)⟩

/-- A search that goes on has enough turns left. It uses up one of the nodes that the limit
allows. -/
theorem HasTurns.running {fuel : Nat} (h : st.HasTurns s (fuel + 1))
    (hstep : st.step p s = .running next) : next.HasTurns s fuel := by
  obtain ⟨node, rest, outcome, ha⟩ := advances_of_step hstep
  have hexplored : next.explored = st.explored + 1 := ha.settles.explored
  have hlt : st.explored < s.maxNodes.steps := by
    refine Nat.lt_of_not_le fun hle => ?_
    have hroom := ha.hasRoom
    rw [Limit.reachedBy_of_steps_le hle] at hroom
    cases hroom
  have hsteps := h.steps_lt
  exact ⟨by omega, by omega⟩

/-- More turns than enough change nothing. -/
theorem HasTurns.loop_add {fuel : Nat} (h : st.HasTurns s fuel) (more : Nat) :
    loop p s (fuel + more) st = loop p s fuel st := by
  induction fuel generalizing st with
  | zero => exact absurd h.pos (lt_irrefl 0)
  | succ fuel ih =>
    rw [Nat.add_right_comm, loop, loop]
    cases hstep : st.step p s with
    | running next => exact ih (h.running hstep)
    | _ => rfl

/-- **A search does not depend on the turns that it is given,** as long as they are no fewer than
those that its limit grants. -/
theorem loop_eq_run {fuel : Nat} (hfuel : s.maxNodes.steps + 1 ≤ fuel) :
    loop p s fuel (start p) = run p s := by
  obtain ⟨more, rfl⟩ := Nat.exists_eq_add_of_le hfuel
  exact (hasTurns_start p s).loop_add more

/-! ## The end -/

/-- What a search stops with after the last state that it reaches. -/
inductive Stops (p : Problem Rat) (s : Settings Rat) (last : Search Rat) :
    Search Rat × Option Error → Prop where
  /-- No node is left. -/
  | done (h : last.stack = []) : Stops p s last (last, none)
  /-- The limit on nodes is reached. -/
  | limit (events : List (Event Rat)) (hne : last.stack ≠ [])
    (h : s.maxNodes.reachedBy last.explored = true) :
    Stops p s last ({ last with isExhausted := true }.note events, none)
  /-- The relaxation of the next node fails. -/
  | failed {node : Node Rat} {rest : List (Node Rat)} {cause : Error}
    (hstack : last.stack = node :: rest)
    (h : solveLogged (node.program p) s false = .error cause) :
    Stops p s last (last.popped rest, some cause)

private theorem loop_stops {fuel : Nat} (h : st.HasTurns s fuel) :
    ∃ last, Reaches p s st last ∧ Stops p s last (loop p s fuel st) := by
  induction fuel generalizing st with
  | zero => exact absurd h.pos (lt_irrefl 0)
  | succ fuel ih =>
    rw [loop]
    cases hstep : st.step p s with
    | running next =>
      obtain ⟨last, hr, hstops⟩ := ih (h.running hstep)
      exact ⟨last, .head hstep hr, hstops⟩
    | done final =>
      rcases cases_of_step_done hstep with ⟨hstack, rfl⟩ | ⟨hne, hreached, events, rfl⟩
      · exact ⟨_, .refl, .done hstack⟩
      · exact ⟨st, .refl, .limit events hne hreached⟩
    | failed reached cause =>
      obtain ⟨node, rest, hstack, rfl, hfails⟩ := solveLogged_of_step_failed hstep
      exact ⟨st, .refl, .failed hstack hfails⟩

/-- **How a search stops.** -/
theorem run_stops (p : Problem Rat) (s : Settings Rat) :
    ∃ last, Reaches p s (start p) last ∧ Stops p s last (run p s) :=
  loop_stops (hasTurns_start p s)

/-- A search ends after the last state that it reaches. Unless the limit on nodes stopped it, no
node is left. -/
structure Ends (p : Problem Rat) (s : Settings Rat) (last final : Search Rat) : Prop where
  reaches : Reaches p s (start p) last
  stack : final.isExhausted = false → last.stack = []
  incumbent : final.incumbent = last.incumbent
  root : final.root = last.root

/-- **How a search ends** that does not fail. -/
theorem run_spec (h : run p s = (final, none)) : ∃ last, Ends p s last final := by
  obtain ⟨last, hr, hstops⟩ := run_stops p s
  rw [h] at hstops
  cases hstops with
  | done hstack => exact ⟨_, hr, fun _ => hstack, rfl, rfl⟩
  | limit events _ _ => exact ⟨last, hr, nofun, rfl, rfl⟩

end Search

/-! ## The answer -/

variable {final : Search Rat} {best : Solution Rat}

private theorem eq_of_withIntegerGraph {root sol : Solution Rat}
    (h : withIntegerGraph p s root sol = .ok best) : best = { sol with graph := best.graph } := by
  obtain ⟨graph, -, h⟩ := exists_of_bind_eq_ok h
  cases graph with
  | none =>
    cases h
    rfl
  | some graph =>
    simp only at h
    split at h
    · cases h
      rfl
    · cases h

/-- What the answer says of the state that a search has ended at: it is the last candidate, with
another status where the limit on nodes stopped the search. -/
def Search.Answers (final : Search Rat) : Option (Solution Rat) → Prop
  | none => final.incumbent = none
  | some best => ∃ sol, final.incumbent = some sol ∧ best.values = sol.values ∧
      best.objectiveValue = sol.objectiveValue ∧
      best.status = if final.isExhausted then .nodeLimit else sol.status

theorem Search.answers_answer (final : Search Rat) : final.Answers final.answer := by
  rw [Search.answer]
  cases hsol : final.incumbent with
  | none => exact hsol
  | some sol =>
    refine ⟨sol, hsol, ?_⟩
    simp only
    split
    · exact ⟨rfl, rfl, rfl⟩
    · exact ⟨rfl, rfl, rfl⟩

/-- **An answer is the last candidate.** -/
theorem exists_of_answer {answer : Option (Solution Rat)}
    (h : (searchInteger p s).answer = .ok answer) :
    ∃ final, Search.run p s = (final, none) ∧
      (searchInteger p s).search.isExhausted = final.isExhausted ∧ final.Answers answer := by
  rw [searchInteger] at h ⊢
  obtain ⟨⟨final, stop⟩, hrun⟩ : ∃ e, Search.run p s = e := ⟨_, rfl⟩
  rw [hrun] at h ⊢
  cases stop with
  | some cause => cases h
  | none =>
    refine ⟨final, rfl, ?_⟩
    have hanswers := Search.answers_answer final
    simp only at h ⊢
    split at h
    · rename_i sol root hsol hroot
      -- The graph that is put in changes nothing else.
      cases hgraph : withIntegerGraph p s root sol with
      | error cause =>
        rw [hgraph] at h
        cases h
      | ok best =>
        rw [hgraph] at h
        cases h
        have hsol : final.answer = some sol := hsol
        rw [hsol] at hanswers
        rw [eq_of_withIntegerGraph hgraph]
        exact ⟨rfl, hanswers⟩
    · cases h
      exact ⟨rfl, hanswers⟩

/-- A search whose answer is computed has it. -/
theorem exists_answer (p : Problem Rat) (s : Settings Rat) (status : Status) (z : Rat)
    (h : (searchInteger p s).answer.toOption.map
      (Option.map fun best => (best.status, best.objectiveValue)) = some (some (status, z))) :
    ∃ best, (searchInteger p s).answer = .ok (some best) ∧ best.status = status ∧
      best.objectiveValue = z := by
  cases hanswer : (searchInteger p s).answer with
  | error e =>
    rw [hanswer] at h
    cases h
  | ok answer =>
    rw [hanswer] at h
    cases answer with
    | none => cases h
    | some best =>
      cases h
      exact ⟨best, rfl, rfl, rfl⟩

/-- A search that is computed to have no answer has none. -/
theorem answer_eq_none {p : Problem Rat} {s : Settings Rat}
    (h : (searchInteger p s).answer.toOption.map (·.isNone) = some true) :
    (searchInteger p s).answer = .ok none := by
  cases hanswer : (searchInteger p s).answer with
  | error e =>
    rw [hanswer] at h
    cases h
  | ok answer =>
    rw [hanswer] at h
    cases answer with
    | none => rfl
    | some best => cases h

end TableauSimplex
