import TableauSimplex.Proofs.Search.Success
import TableauSimplex.Proofs.Search.Verdict

/-!
# The test of bounds

A search takes a node off the stack and leaves it alone when the optimum of its parent does not
improve on the best candidate. A search without that test (`Search.untested`) solves the relaxation
of such a node too, and comes to the same state by it (`Search.Reaches.expand_of_not_admits`): the
relaxation does not fail, and when it has an optimum, that is no better than the one of the parent.
So both searches stay together turn by turn, and all that differs is the log
(`Search.loopWith_untested`).

* `Search.stepWith`, `searchWith`: searches with a test of their own for the next node. With the
  test of bounds they are `Search.step` and `searchInteger`.
* `searchWith_untested`: both searches find the same.
-/

namespace TableauSimplex

variable {p : Problem Rat} {s : Settings Rat}

/-! ## Searches with another test -/

namespace Search

/-- One turn of a search that expands the next node if it passes a test. -/
def stepWith (test : Search Rat → Node Rat → Bool) (p : Problem Rat) (s : Settings Rat)
    (st : Search Rat) : Turn Rat :=
  match st.stack with
  | [] => .done st
  | node :: rest =>
    if s.maxNodes.reachedBy st.explored then
      .done ({ st with isExhausted := true }.note [.searchStopped st.explored st.stack.length])
    else if test (st.popped rest) node then expand p s node (st.popped rest)
    else .running (st.popped rest)

/-- Its turns until it ends. -/
def loopWith (test : Search Rat → Node Rat → Bool) (p : Problem Rat) (s : Settings Rat) :
    Nat → Search Rat → Search Rat × Option Error
  | 0, st => ({ st with isExhausted := true }, none)
  | fuel + 1, st =>
    match stepWith test p s st with
    | .running next => loopWith test p s fuel next
    | .done final => (final, none)
    | .failed reached cause => (reached, some cause)

/-- What is reported of a search that has stopped. -/
def conclude (p : Problem Rat) (s : Settings Rat) : Search Rat × Option Error → SearchResult Rat
  | (st, some cause) => ⟨st, .error cause⟩
  | (st, none) =>
    let st := st.note [.searched st.explored st.best]
    match st.answer, st.root with
    | some best, some root => ⟨st, some <$> withIntegerGraph p s root best⟩
    | best, _ => ⟨st, .ok best⟩

/-- No test: every node is expanded. -/
def untested : Search Rat → Node Rat → Bool := fun _ _ => true

end Search

/-- A search with a test of its own for the next node. -/
def searchWith (test : Search Rat → Node Rat → Bool) (p : Problem Rat) (s : Settings Rat) :
    SearchResult Rat :=
  Search.conclude p s (Search.loopWith test p s (s.maxNodes.steps + 1) (Search.start p))

namespace Search

theorem stepWith_admits (p : Problem Rat) (s : Settings Rat) (st : Search Rat) :
    stepWith (fun st => st.admits p) p s st = st.step p s := by
  unfold stepWith step
  cases st.stack <;> rfl

theorem loopWith_admits (p : Problem Rat) (s : Settings Rat) (fuel : Nat) (st : Search Rat) :
    loopWith (fun st => st.admits p) p s fuel st = loop p s fuel st := by
  induction fuel generalizing st with
  | zero => rfl
  | succ fuel ih =>
    rw [loopWith, loop, stepWith_admits]
    cases st.step p s with
    | running next => exact ih next
    | done final => rfl
    | failed reached cause => rfl

theorem conclude_run (p : Problem Rat) (s : Settings Rat) :
    conclude p s (run p s) = searchInteger p s := by
  unfold conclude searchInteger
  obtain ⟨st, stop⟩ := run p s
  cases stop with
  | some cause => rfl
  | none =>
    simp only
    generalize st.note [.searched st.explored st.best] = st
    cases st.answer <;> cases st.root <;> rfl

end Search

/-- **With the test of bounds** it is the search for integer solutions. -/
theorem searchWith_admits (p : Problem Rat) (s : Settings Rat) :
    searchWith (fun st => st.admits p) p s = searchInteger p s := by
  rw [searchWith, Search.loopWith_admits]
  exact Search.conclude_run p s

/-! ## Logs -/

/-- The state of a search apart from its log. -/
def Search.withoutLog (st : Search Rat) : Search Rat := { st with log := [] }

/-- What a turn comes to apart from the log. -/
def Turn.withoutLog : Turn Rat → Turn Rat
  | running next => running next.withoutLog
  | done final => done final.withoutLog
  | failed reached cause => failed reached.withoutLog cause

namespace Search

variable {st st' : Search Rat} {node : Node Rat}

theorem withoutLog_eq_iff : st.withoutLog = st'.withoutLog ↔
    st.stack = st'.stack ∧ st.explored = st'.explored ∧ st.isExhausted = st'.isExhausted ∧
      st.root = st'.root ∧ st.incumbent = st'.incumbent := by
  simp [withoutLog]

private theorem descend_congr {sol : Solution Rat} (h : st.withoutLog = st'.withoutLog) :
    (descend p s node sol st).withoutLog = (descend p s node sol st').withoutLog := by
  have hlog : ∀ st, (descend p s node sol st).withoutLog =
      (descend p s node sol st.withoutLog).withoutLog := fun st => by
    unfold descend
    cases mostFractional sol.values s.integrality with
    | error why => rfl
    | ok found =>
      cases found with
      | none => rfl
      | some j =>
        simp only [split_eq]
        rfl
  rw [hlog st, h, ← hlog st']

/-- **The log is not looked at** to expand a node. -/
theorem expand_congr (h : st.withoutLog = st'.withoutLog) :
    (expand p s node st).withoutLog = (expand p s node st').withoutLog := by
  obtain ⟨-, hexplored, -, -, hincumbent⟩ := withoutLog_eq_iff.mp h
  cases hlogged : solveLogged { p with constraints := node.constraints } s false with
  | error cause =>
    rw [expand_of_error hlogged, expand_of_error hlogged]
    exact congrArg (Turn.failed · cause) h
  | ok result =>
    obtain ⟨sol, events⟩ := result
    have hsolved : (st.solved sol events).withoutLog = (st'.solved sol events).withoutLog :=
      congrArg (fun st : Search Rat => { st with root := st.root.or (some sol) }) h
    rw [expand_of_ok hlogged, expand_of_ok hlogged, best, best, hincumbent]
    split
    · exact congrArg Turn.running hsolved
    · split
      · exact descend_congr hsolved
      · exact congrArg Turn.running hsolved

/-! ## Nodes that fail the test -/

/-- A candidate comes from a relaxation, so that there is a first one. -/
theorem Reaches.root_isSome (hr : Reaches p s (start p) st) {b : Rat} (h : st.best = some b) :
    st.root.isSome = true := by
  induction hr with
  | refl => cases h
  | tail _ hstep ih =>
    obtain ⟨node, rest, outcome, ha⟩ := advances_of_step hstep
    rw [best, ha.settles.incumbent] at h
    rw [ha.settles.root, Option.isSome_or, Bool.or_eq_true]
    cases outcome with
    | accepted sol => exact .inr rfl
    | _ => exact .inl (ih h)

/-- A node with a parent has the bound that it was split off with. -/
theorem Reaches.constraints_ne_nil (hr : Reaches p s (start p) st) :
    ∀ node ∈ st.stack, node.bound ≠ none → node.constraints ≠ [] :=
  hr.forall_mem_stack (P := fun node => node.bound ≠ none → node.constraints ≠ [])
    (fun h => absurd rfl h)
    fun _ _ _ _ _ _ _ _ => List.append_ne_nil_of_right_ne_nil _ (List.cons_ne_nil _ _)

section

variable (hp : p.Regular) (hb : ∀ c ∈ p.constraints, 0 ≤ c.rhs) (hs : s.Exact)

include hp hb hs

/-- **The optimum of a node is no better than that of its parent.** -/
theorem Reaches.orient_objectiveValue_le (hr : Reaches p s (start p) st) (hnode : node ∈ st.stack)
    {sol : Solution Rat} (hsol : solve (node.program p) s false = .ok sol)
    (ho : sol.status = .optimal) {z : Rat} (hz : node.bound = some z) :
    p.sense.orient sol.objectiveValue ≤ p.sense.orient z := by
  have hfits : node.Fits p := hr.forall_mem_stack (Node.fits_root hb)
    (keptByHalves_fits hp hs.ratio hs.feasibility) node hnode
  have hoptimum := optimum_of_exact (hfits.regular hp) hfits.rhs_nonneg hs hsol ho
  rw [hoptimum.objectiveValue]
  exact hr.le_bound (fun _ _ he => he.optimum hp hb hs) node hnode z hz _ hoptimum.feasible

/-- **A node that fails the test is expanded in vain.** Its relaxation is solved, and the search is
where it would be without that. -/
theorem Reaches.expand_of_not_admits (hr : Reaches p s (start p) st) {rest : List (Node Rat)}
    (hstack : st.stack = node :: rest) (hnot : st.admits p node = false) :
    ∃ events, expand p s node (st.popped rest) = .running ((st.popped rest).note events) := by
  have hnode : node ∈ st.stack := by rw [hstack]; exact List.mem_cons_self
  obtain ⟨z, b, hz, hbest, hle⟩ := exists_of_not_admits hnot
  -- The relaxation is that of a program with a column, and some relaxation was solved before.
  obtain ⟨⟨sol, events⟩, hlogged⟩ :
      ∃ result, solveLogged (node.program p) s false = .ok result :=
    TableauSimplex.exists_solveLogged ((hr.descends node hnode).regular hp)
      (.inr (hr.constraints_ne_nil node hnode (by rw [hz]; nofun))) hs.ratio.ge false
  obtain ⟨root, hroot⟩ := Option.isSome_iff_exists.mp (hr.root_isSome hbest)
  have hkeeps : (st.popped rest).solved sol events = (st.popped rest).note events := by
    simp [solved, popped, hroot]
  rw [expand_of_ok hlogged, hkeeps]
  by_cases ho : sol.status = .optimal
  · have hsol := hr.orient_objectiveValue_le hp hb hs hnode (solve_of_solveLogged hlogged) ho hz
    have himproves : ¬p.sense.improves sol.objectiveValue (st.popped rest).best = true := by
      rw [show (st.popped rest).best = some b from hbest, Sense.improves_some]
      exact not_lt.mpr (hsol.trans hle)
    rw [if_neg (not_not.mpr ho), if_neg himproves]
    exact ⟨events, rfl⟩
  · rw [if_pos ho]
    exact ⟨events ++ [.pruned (st.popped rest).explored sol.status], by simp [note]⟩

/-! ## Both searches -/

/-- **One turn** with the test and one without it come to the same. -/
theorem Reaches.stepWith_untested (hr : Reaches p s (start p) st)
    (h : st'.withoutLog = st.withoutLog) :
    (stepWith untested p s st').withoutLog = (st.step p s).withoutLog := by
  obtain ⟨hstack, hexplored, -, hroot, hincumbent⟩ := withoutLog_eq_iff.mp h
  rw [← stepWith_admits]
  unfold stepWith
  rw [hstack, hexplored]
  cases hnext : st.stack with
  | nil => exact congrArg Turn.done h
  | cons node rest =>
    have hpopped : (st'.popped rest).withoutLog = (st.popped rest).withoutLog :=
      congrArg (popped · rest) h
    simp only
    split
    · rw [hroot, hincumbent]
      rfl
    · simp only [untested, if_true]
      split
      · exact expand_congr hpopped
      · rename_i hnot
        obtain ⟨events, hexpand⟩ :=
          hr.expand_of_not_admits hp hb hs hnext (Bool.eq_false_of_not_eq_true hnot)
        rw [expand_congr hpopped, hexpand]
        rfl

/-- **All turns.** The searches stop alike. -/
theorem Reaches.loopWith_untested (hr : Reaches p s (start p) st)
    (h : st'.withoutLog = st.withoutLog) (fuel : Nat) :
    (loopWith untested p s fuel st').1.withoutLog = (loop p s fuel st).1.withoutLog ∧
      (loopWith untested p s fuel st').2 = (loop p s fuel st).2 := by
  induction fuel generalizing st st' with
  | zero => exact ⟨congrArg (fun st : Search Rat => { st with isExhausted := true }) h, rfl⟩
  | succ fuel ih =>
    have hturn := hr.stepWith_untested hp hb hs h
    rw [loopWith, loop]
    cases hstep : st.step p s with
    | running next =>
      rw [hstep] at hturn
      cases hstep' : stepWith untested p s st' with
      | running next' =>
        rw [hstep'] at hturn
        exact ih (hr.tail hstep) (Turn.running.inj hturn)
      | _ =>
        rw [hstep'] at hturn
        cases hturn
    | done final =>
      rw [hstep] at hturn
      cases hstep' : stepWith untested p s st' with
      | done final' =>
        rw [hstep'] at hturn
        exact ⟨Turn.done.inj hturn, rfl⟩
      | _ =>
        rw [hstep'] at hturn
        cases hturn
    | failed reached cause =>
      rw [hstep] at hturn
      cases hstep' : stepWith untested p s st' with
      | failed reached' cause' =>
        rw [hstep'] at hturn
        obtain ⟨hreached, rfl⟩ := Turn.failed.inj hturn
        exact ⟨hreached, rfl⟩
      | _ =>
        rw [hstep'] at hturn
        cases hturn

end

/-- What is reported of a search does not depend on its log. -/
theorem conclude_congr {e e' : Search Rat × Option Error}
    (h : e.1.withoutLog = e'.1.withoutLog) (hstop : e.2 = e'.2) :
    (conclude p s e).answer = (conclude p s e').answer ∧
      (conclude p s e).search.withoutLog = (conclude p s e').search.withoutLog := by
  obtain ⟨st, stop⟩ := e
  obtain ⟨st', stop'⟩ := e'
  obtain rfl : stop = stop' := hstop
  cases stop with
  | some cause => exact ⟨rfl, h⟩
  | none =>
    have hnext : (st.note [.searched st.explored st.best]).withoutLog =
        (st'.note [.searched st'.explored st'.best]).withoutLog := h
    unfold conclude
    simp only
    generalize st.note [.searched st.explored st.best] = next at hnext ⊢
    generalize st'.note [.searched st'.explored st'.best] = next' at hnext ⊢
    obtain ⟨-, -, hexhausted, hroot, hincumbent⟩ := withoutLog_eq_iff.mp hnext
    rw [answer, answer, hexhausted, hroot, hincumbent]
    split <;> exact ⟨rfl, hnext⟩

end Search

/-- **The test of bounds saves work and nothing else.** The search for integer solutions is the one
with that test. With nonnegative right sides and without tolerances of pivoting and feasibility, the
search that expands every node gives the same answer after the same number of nodes, and has the
same candidates turn by turn. -/
theorem searchWith_untested (hp : p.Regular) (hb : ∀ c ∈ p.constraints, 0 ≤ c.rhs) (hs : s.Exact) :
    searchWith (fun st => st.admits p) p s = searchInteger p s ∧
      (searchWith Search.untested p s).answer = (searchInteger p s).answer ∧
      (searchWith Search.untested p s).search.root = (searchInteger p s).search.root ∧
      (searchWith Search.untested p s).search.explored = (searchInteger p s).search.explored ∧
      (searchWith Search.untested p s).search.isExhausted =
        (searchInteger p s).search.isExhausted ∧
      ∀ turns, (Search.loopWith Search.untested p s turns (Search.start p)).1.incumbent =
        (Search.loop p s turns (Search.start p)).1.incumbent := by
  have hstart : Search.Reaches p s (Search.start p) (Search.start p) := .refl
  have hturns := hstart.loopWith_untested hp hb hs rfl
  obtain ⟨hlog, hstop⟩ := hturns (s.maxNodes.steps + 1)
  obtain ⟨hanswer, hsearch⟩ := Search.conclude_congr (p := p) (s := s) hlog hstop
  refine ⟨searchWith_admits p s, ?_⟩
  rw [← Search.conclude_run]
  obtain ⟨-, hexplored, hexhausted, hroot, -⟩ := Search.withoutLog_eq_iff.mp hsearch
  refine ⟨hanswer, hroot, hexplored, hexhausted, fun turns => ?_⟩
  obtain ⟨-, -, -, -, hincumbent⟩ := Search.withoutLog_eq_iff.mp (hturns turns).1
  exact hincumbent

/-- The optimum is reached on a whole edge, whose corners are not integral. -/
def flatTop : Problem Rat where
  sense := .maximize
  names := [.text "x", .text "y"]
  objective := [0, 1]
  constraints := [⟨[-3, 8], .atMost, 9⟩, ⟨[0, 1], .atMost, 2⟩, ⟨[1, 1], .atLeast, 1⟩]

/-- The upper half of the root has a candidate as good as the root, so that the test leaves the
lower half alone. Without the test its relaxation is solved, to the same answer. -/
theorem searchWith_untested_flatTop :
    (searchInteger flatTop (.exact 100000)).search.log.length <
        (searchWith Search.untested flatTop (.exact 100000)).search.log.length ∧
      (searchInteger flatTop (.exact 100000)).search.explored = 3 ∧
      (searchWith Search.untested flatTop (.exact 100000)).search.explored = 3 ∧
      (searchWith Search.untested flatTop (.exact 100000)).answer =
        (searchInteger flatTop (.exact 100000)).answer := by
  obtain ⟨-, hanswer, -, hexplored, -⟩ := searchWith_untested (p := flatTop) (s := .exact 100000)
    (by decide +kernel) (by decide +kernel) ⟨rfl, rfl, rfl⟩
  have hthree : (searchInteger flatTop (.exact 100000)).search.explored = 3 := by decide +kernel
  exact ⟨by decide +kernel, hthree, hexplored.trans hthree, hanswer⟩

end TableauSimplex
