import TableauSimplex.Proofs.Mirror
import TableauSimplex.Proofs.Search.Success

/-!
# Searches turned around

The search for integer solutions goes the same way for a program and its mirror image. Relaxations
of nodes are mirror images of each other (`solveLogged_mirror`), and a value improves on the best
candidate when its negative does in the other sense (`Sense.improves_mirror`). So every turn of the
one search is the mirror image of a turn of the other (`Search.step_mirror`), and the searches end
alike (`Search.run_mirror`). The graph of the answer is not turned around: its objective line is
that of another program.

* `solve_mirror`: both laws together, for any arithmetic, and the existence of what they compare
  over the rationals.
-/

namespace TableauSimplex

variable {α : Type} [Scalar α]

/-! ## Mirror images -/

/-- A node of a program as one of its mirror image. -/
def Node.mirror (node : Node α) : Node α := { node with bound := node.bound.map (-·) }

/-- The state of a search as one of the mirror image. -/
def Search.mirror (st : Search α) : Search α :=
  { st with
    stack := st.stack.map Node.mirror
    root := st.root.map Solution.mirror
    incumbent := st.incumbent.map Solution.mirror
    log := st.log.map Event.mirror }

/-- What a turn comes to for the mirror image. -/
def Turn.mirror : Turn α → Turn α
  | .running next => .running next.mirror
  | .done final => .done final.mirror
  | .failed reached cause => .failed reached.mirror cause

/-- **A negative value improves in the other sense.** -/
theorem Sense.improves_mirror [LawfulNeg α] (d : Sense) (z : α) (best : Option α) :
    d.flipped.improves (-z) (best.map (-·)) = d.improves z best := by
  cases best with
  | none => rfl
  | some b =>
    cases d with
    | maximize => exact decide_eq_decide.mpr (LawfulNeg.lt_iff b z).symm
    | minimize => exact decide_eq_decide.mpr (LawfulNeg.lt_iff z b).symm

namespace Search

theorem note_mirror (st : Search α) (events : List (Event α)) :
    (st.note events).mirror = st.mirror.note (events.map Event.mirror) := by
  simp only [note, mirror, List.map_append]

theorem best_mirror (st : Search α) : st.mirror.best = st.best.map (-·) := by
  show (st.incumbent.map Solution.mirror).map (·.objectiveValue) =
    (st.incumbent.map (·.objectiveValue)).map (-·)
  cases st.incumbent <;> rfl

theorem split_mirror (p : Problem α) (node : Node α) (z : α) (j : Nat) (value : α) :
    split p.mirror node.mirror (-z) j value =
      (fun halves => (halves.1.mirror, halves.2.mirror)) <$> split p node z j value := by
  unfold split
  simp only [map_bind]
  rfl

theorem descend_mirror (p : Problem α) (s : Settings α) (node : Node α) (sol : Solution α)
    (st : Search α) :
    descend p.mirror s node.mirror sol.mirror st.mirror = (descend p s node sol st).mirror := by
  unfold descend
  simp only [Solution.values_mirror, Solution.objectiveValue_mirror, split_mirror]
  cases mostFractional sol.values s.integrality with
  | error why => rfl
  | ok found =>
    cases found with
    | none =>
      simp only [Turn.mirror, note_mirror]
      rfl
    | some j =>
      simp only
      cases split p node sol.objectiveValue j (sol.values.getD j 0) with
      | error why => rfl
      | ok halves =>
        simp only [Turn.mirror, note_mirror]
        rfl

section

variable [LawfulNeg α] (p : Problem α) (s : Settings α) (st : Search α)

theorem admits_mirror (node : Node α) :
    st.mirror.admits p.mirror node.mirror = st.admits p node := by
  unfold admits
  rw [best_mirror]
  obtain ⟨constraints, bound, depth⟩ := node
  cases bound with
  | none => rfl
  | some z => exact Sense.improves_mirror p.sense z st.best

omit [LawfulNeg α] in
theorem solved_mirror (sol : Solution α) (events : List (Event α)) :
    (st.solved sol events).mirror = st.mirror.solved sol.mirror (events.map Event.mirror) := by
  unfold solved
  rw [note_mirror]
  unfold mirror
  cases st.root <;> rfl

theorem expand_mirror (node : Node α) :
    expand p.mirror s node.mirror st.mirror = (expand p s node st).mirror := by
  have hmirror := solveLogged_mirror { p with constraints := node.constraints } s
  cases hlogged : solveLogged { p with constraints := node.constraints } s false with
  | error cause =>
    rw [hlogged] at hmirror
    rw [expand_of_error hlogged, expand_of_error hmirror]
    rfl
  | ok result =>
    obtain ⟨sol, events⟩ := result
    rw [hlogged] at hmirror
    rw [expand_of_ok hlogged, expand_of_ok hmirror, best_mirror, Solution.objectiveValue_mirror,
      Problem.sense_mirror, Sense.improves_mirror, Solution.status_mirror, ← solved_mirror]
    split
    · simp only [Turn.mirror, note_mirror]
      rfl
    · split
      · exact descend_mirror p s node sol (st.solved sol events)
      · rfl

/-- **One turn** of the search for the mirror image. -/
theorem step_mirror : st.mirror.step p.mirror s = (st.step p s).mirror := by
  unfold step
  rw [show st.mirror.stack = st.stack.map Node.mirror from rfl,
    show st.mirror.explored = st.explored from rfl]
  cases st.stack with
  | nil => rfl
  | cons node rest =>
    by_cases hroom : s.maxNodes.reachedBy st.explored = true
    · simp only [List.map_cons, hroom, if_true, Turn.mirror, note_mirror]
      simp only [List.length_cons, List.length_map]
      rfl
    · have hnext : { st.mirror with stack := rest.map Node.mirror, explored := st.explored + 1 } =
          mirror { st with stack := rest, explored := st.explored + 1 } := rfl
      simp only [List.map_cons, hroom, Bool.false_eq_true, if_false, hnext, admits_mirror,
        expand_mirror]
      generalize { st with stack := rest, explored := st.explored + 1 } = next
      cases next.admits p node <;> rfl

theorem loop_mirror (fuel : Nat) :
    loop p.mirror s fuel st.mirror = ((loop p s fuel st).1.mirror, (loop p s fuel st).2) := by
  induction fuel generalizing st with
  | zero => rfl
  | succ fuel ih =>
    rw [loop, loop, step_mirror]
    cases st.step p s with
    | running next => exact ih next
    | done final => rfl
    | failed reached cause => rfl

/-- **The whole search** for the mirror image. -/
theorem run_mirror : run p.mirror s = ((run p s).1.mirror, (run p s).2) :=
  loop_mirror p s (start p) (s.maxNodes.steps + 1)

end

theorem answer_mirror (st : Search α) : st.mirror.answer = st.answer.map Solution.mirror := by
  unfold answer mirror
  cases st.incumbent with
  | none => rfl
  | some sol => cases st.isExhausted <;> rfl

end Search

/-! ## Answers -/

namespace Plane

/-- The objective line of the mirror image fails where that of the program does. -/
theorem objectiveLine_mirror (p : Problem α) (z z' limit tol : α) :
    (fun _ => ()) <$> objectiveLine p.mirror z' limit tol =
      (fun _ => ()) <$> objectiveLine p z limit tol := by
  unfold objectiveLine Problem.mirror
  rcases p.objective with _ | ⟨a, _ | ⟨b, _ | ⟨c, rest⟩⟩⟩
  · rfl
  · rfl
  · rfl
  · simp only [List.map_cons, List.length_cons, List.length_map]

/-- **The mirror image has a graph where the program has one,** and fails to be drawn for the same
cause. -/
theorem graph_mirror (p : Problem α) (values : List α) (z z' : α) (s : Settings α) :
    Option.isSome <$> graph p.mirror values z' s = Option.isSome <$> graph p values z s := by
  unfold graph
  rw [Problem.numVars_mirror, show feasibleVertices p.mirror s = feasibleVertices p s from rfl]
  by_cases hn : (p.numVars != 2) = true
  · simp only [hn, if_true]
  · simp only [hn]
    cases feasibleVertices p s with
    | error cause => rfl
    | ok vertices =>
      rcases values with _ | ⟨x, _ | ⟨y, rest⟩⟩
      · rfl
      · rfl
      · -- The value at the optimum plays no part in the size of the plot.
        have hlimit : plotLimit vertices ⟨x, y, some z'⟩ s = plotLimit vertices ⟨x, y, some z⟩ s :=
          rfl
        simp only [bind, Except.bind, pure, Except.pure, hlimit]
        generalize plotLimit vertices ⟨x, y, some z⟩ s = limit
        rw [Problem.constraints_mirror, show constraintLine p.mirror = constraintLine p from rfl]
        have hline := objectiveLine_mirror p z z' limit s.parallel
        cases p.constraints.zipIdx.mapM fun c => constraintLine p limit s.parallel c.2 c.1 with
        | error cause => rfl
        | ok lines =>
          cases h : objectiveLine p z limit s.parallel <;>
            cases h' : objectiveLine p.mirror z' limit s.parallel <;>
            rw [h, h'] at hline <;> cases hline <;> rfl

end Plane

/-- Two results that are alike as far as something is found. -/
private theorem cases_of_isSome {β : Type} {x y : Except Error (Option β)}
    (h : Option.isSome <$> x = Option.isSome <$> y) :
    (∃ cause, x = .error cause ∧ y = .error cause) ∨ (x = .ok none ∧ y = .ok none) ∨
      ∃ a b, x = .ok (some a) ∧ y = .ok (some b) := by
  rcases x with cause | _ | a <;> rcases y with cause' | _ | b <;> cases h
  · exact .inl ⟨cause, rfl, rfl⟩
  · exact .inr (.inl ⟨rfl, rfl⟩)
  · exact .inr (.inr ⟨a, b, rfl, rfl⟩)

/-- The solution without its graph. -/
def Solution.withoutGraph (sol : Solution α) : Solution α := { sol with graph := none }

theorem withIntegerGraph_mirror (p : Problem α) (s : Settings α) (root best : Solution α) :
    Solution.withoutGraph <$> withIntegerGraph p.mirror s root.mirror best.mirror =
      (fun sol => sol.mirror.withoutGraph) <$> withIntegerGraph p s root best := by
  unfold withIntegerGraph
  simp only [Solution.values_mirror, Solution.objectiveValue_mirror]
  rcases cases_of_isSome
      (Plane.graph_mirror p root.values root.objectiveValue (-root.objectiveValue) s) with
    ⟨cause, h', h⟩ | ⟨h', h⟩ | ⟨graph', graph, h', h⟩ <;> rw [h', h]
  · rfl
  · rfl
  · rcases best.values with _ | ⟨x, _ | ⟨y, rest⟩⟩ <;> rfl

variable [LawfulNeg α] (p : Problem α) (s : Settings α)

/-- **A search for the mirror image** ends at the mirror image of the last state, and its answer is
that of the answer but for the graph. -/
theorem searchInteger_mirror :
    (searchInteger p.mirror s).search = (searchInteger p s).search.mirror ∧
      Option.map Solution.withoutGraph <$> (searchInteger p.mirror s).answer =
        Option.map (fun best => best.mirror.withoutGraph) <$> (searchInteger p s).answer := by
  unfold searchInteger
  rw [Search.run_mirror]
  obtain ⟨st, stop⟩ := Search.run p s
  cases stop with
  | some cause => exact ⟨rfl, rfl⟩
  | none =>
    have hnote : st.mirror.note [.searched st.mirror.explored st.mirror.best] =
        (st.note [.searched st.explored st.best]).mirror := by
      rw [Search.note_mirror, Search.best_mirror]
      rfl
    simp only [hnote]
    generalize st.note [.searched st.explored st.best] = last
    rw [Search.answer_mirror, show last.mirror.root = last.root.map Solution.mirror from rfl]
    cases last.answer with
    | none => exact ⟨rfl, rfl⟩
    | some best =>
      cases last.root with
      | none => exact ⟨rfl, rfl⟩
      | some root =>
        refine ⟨rfl, ?_⟩
        have hgraph := congrArg (some <$> ·) (withIntegerGraph_mirror p s root best)
        simpa only [Functor.map_map, Option.map_some] using hgraph

/-- **Maximizing an objective and minimizing its negative are the same task,** in any arithmetic
with lawful negation. The solve of the mirror image has the same status, values, records and other
optimum, with the objective value and all prices negated. The search for integer solutions explores
as many nodes, is stopped by the limit alike, and has the mirror image of the answer, graphs aside.
What fails for the one fails for the other, for the same cause. Over the rationals nothing fails
when every coefficient is there, there is a column to choose from, and the tolerance of the ratio
test is nonnegative. -/
theorem solve_search_mirror :
    solve p.mirror s false = Solution.mirror <$> solve p s false ∧
      (searchInteger p.mirror s).search.explored = (searchInteger p s).search.explored ∧
      (searchInteger p.mirror s).search.isExhausted = (searchInteger p s).search.isExhausted ∧
      Option.map Solution.withoutGraph <$> (searchInteger p.mirror s).answer =
        Option.map (fun best => best.mirror.withoutGraph) <$> (searchInteger p s).answer ∧
      ∀ (q : Problem Rat) (r : Settings Rat), q.Regular → q.HasColumn → 0 ≤ r.ratio →
        (∃ sol, solve q r false = .ok sol) ∧ ∃ answer, (searchInteger q r).answer = .ok answer := by
  obtain ⟨hsearch, hanswer⟩ := searchInteger_mirror p s
  refine ⟨solve_mirror p s, ?_, ?_, hanswer, fun q r hq hc hr => ?_⟩
  · rw [hsearch]
    rfl
  · rw [hsearch]
    rfl
  · exact ⟨exists_solve hq hc hr false, exists_answer_eq_ok hq hc hr⟩

/-- The solution and the best integer point of a program and of its mirror image. -/
theorem solve_search_mirror_tent :
    ∃ sol best best', solve tent (.exact 100000) false = .ok sol ∧
      solve tent.mirror (.exact 100000) false = .ok sol.mirror ∧
      (searchInteger tent (.exact 100000)).answer = .ok (some best) ∧
      (searchInteger tent.mirror (.exact 100000)).answer = .ok (some best') ∧
      best.objectiveValue = 1 ∧ best'.objectiveValue = -1 ∧ best'.values = best.values := by
  obtain ⟨hmirror, -, -, hanswer, hreturns⟩ := solve_search_mirror tent (.exact 100000)
  obtain ⟨⟨sol, hsol⟩, -⟩ :=
    hreturns tent (.exact 100000) (by decide +kernel) (.inl (by decide)) (le_refl 0)
  rw [hsol] at hmirror
  obtain ⟨best, h, -, hz⟩ := exists_answer tent (.exact 100000) .optimal 1 (by decide +kernel)
  rw [h] at hanswer
  rcases h' : (searchInteger tent.mirror (.exact 100000)).answer with _ | _ | best' <;>
    rw [h'] at hanswer
  · cases hanswer
  · cases hanswer
  · have hsame : best'.withoutGraph = best.mirror.withoutGraph :=
      Option.some.inj (Except.ok.inj hanswer)
    have hvalue : best'.objectiveValue = -best.objectiveValue := congrArg (·.objectiveValue) hsame
    have hvalues : best'.values = best.values := congrArg (·.values) hsame
    rw [hz] at hvalue
    exact ⟨sol, best, best', hsol, hmirror, h, rfl, hz, hvalue, hvalues⟩

end TableauSimplex
