import TableauSimplex.Solution.Solve

/-!
# Objectives turned around

Maximizing an objective and minimizing its negative are the same task. A solve takes the same steps
for both (`Problem.mirror`): the tableau always maximizes, so that the first tableaux of the two
differ only in the note that the objective was negated (`Tableau.mirror`). No step looks at the
note. The objective value and the prices do when they are read off, and come out negated
(`Solution.mirror`).

* `LawfulNeg`: what negation has to satisfy for that.
* `Run.finish_mirror`: runs from the two tableaux go on alike.
* `solveLogged_mirror`: so do the two solves, also where they fail, and their events are the same
  but for objective values.
-/

namespace TableauSimplex

/-- Negation that can be undone, that is multiplication by minus one, and that turns comparisons
around. -/
class LawfulNeg (α : Type) [Scalar α] : Prop where
  neg_neg (a : α) : - -a = a
  neg_one_mul (a : α) : -1 * a = -(1 * a)
  lt_iff (a b : α) : a < b ↔ -b < -a

instance : LawfulNeg Rat where
  neg_neg := Rat.neg_neg
  neg_one_mul a := Rat.neg_mul 1 a
  lt_iff _ _ := Rat.neg_lt_neg_iff.symm

variable {α : Type} [Scalar α]

/-- The program with the other sense and the negative objective. -/
def Problem.mirror (p : Problem α) : Problem α :=
  { p with sense := p.sense.flipped, objective := p.objective.map (-·) }

section

variable (p : Problem α)

@[simp] theorem Problem.sense_mirror : p.mirror.sense = p.sense.flipped := rfl

@[simp] theorem Problem.numVars_mirror : p.mirror.numVars = p.numVars := rfl

@[simp] theorem Problem.constraints_mirror : p.mirror.constraints = p.constraints := rfl

end

/-- The solution of a program as one of its mirror image. -/
def Solution.mirror (sol : Solution α) : Solution α :=
  { sol with
    objectiveValue := -sol.objectiveValue
    shadowPrices := sol.shadowPrices.map (-·) }

section

variable (sol : Solution α)

@[simp] theorem Solution.values_mirror : sol.mirror.values = sol.values := rfl

@[simp] theorem Solution.objectiveValue_mirror :
    sol.mirror.objectiveValue = -sol.objectiveValue := rfl

@[simp] theorem Solution.status_mirror : sol.mirror.status = sol.status := rfl

end

/-- An event on the way through a program as one for its mirror image. -/
def Event.mirror : Event α → Event α
  | solved status z pivots => solved status (-z) pivots
  | incumbent node z => incumbent node (-z)
  | searched nodes best => searched nodes (best.map (-·))
  | event => event

/-! ## Tableaux -/

namespace Tableau

/-- The tableau with the note on its objective turned around. -/
def mirror (t : Tableau α) : Tableau α := { t with minimize := !t.minimize }

section

variable [LawfulNeg α]

/-- **The same coefficients are maximized.** -/
theorem maximized_mirror (p : Problem α) : maximized p.mirror = maximized p := by
  obtain ⟨sense, names, objective, constraints⟩ := p
  cases sense with
  | maximize =>
    show (objective.map (-·)).map (-·) = objective
    rw [List.map_map]
    exact (List.map_congr_left fun a _ => LawfulNeg.neg_neg a).trans (List.map_id objective)
  | minimize => rfl

theorem ofProblem_mirror (p : Problem α) (penalty : α) :
    ofProblem p.mirror penalty = mirror <$> ofProblem p penalty := by
  have hsense : (p.mirror.sense == .minimize) = !(p.sense == .minimize) := by
    unfold Problem.mirror
    cases p.sense <;> rfl
  unfold ofProblem
  rw [maximized_mirror, hsense]
  simp only [map_bind]
  rfl

theorem objectiveValue_mirror (t : Tableau α) : t.mirror.objectiveValue = -t.objectiveValue := by
  unfold objectiveValue mirror
  cases t.minimize with
  | false => rfl
  | true => exact (LawfulNeg.neg_neg _).symm

theorem shadowPrices_mirror (t : Tableau α) (p : Problem α) :
    t.mirror.shadowPrices p.mirror = (t.shadowPrices p).map (-·) := by
  have hflip : ∀ a : α, (if t.mirror.minimize then -1 else 1 : α) * a =
      -((if t.minimize then -1 else 1 : α) * a) := fun a => by
    unfold mirror
    cases t.minimize with
    | false => exact LawfulNeg.neg_one_mul a
    | true =>
      show 1 * a = -(-1 * a)
      rw [LawfulNeg.neg_one_mul, LawfulNeg.neg_neg]
  unfold shadowPrices
  simp only [List.mapIdx_eq_zipIdx_map, List.map_map]
  exact List.map_congr_left fun c _ => hflip _

end

/-! Records do not show the note, and choosing a pivot and pivoting do not look at it. -/

variable (t : Tableau α)

section

omit [Scalar α]

@[simp] theorem rows_mirror : t.mirror.rows = t.rows := rfl

@[simp] theorem basis_mirror : t.mirror.basis = t.basis := rfl

@[simp] theorem headers_mirror : t.mirror.headers = t.headers := rfl

@[simp] theorem rowAt_mirror (row : Nat) : t.mirror.rowAt row = t.rowAt row := rfl

@[simp] theorem columnAt?_mirror (col : Int) : t.mirror.columnAt? col = t.columnAt? col := rfl

@[simp] theorem snapshot_mirror (number : Int) (entering : Option Int) (leaving : Option Name)
    (pivotRow : Option Int) :
    t.mirror.snapshot number entering leaving pivotRow =
      t.snapshot number entering leaving pivotRow := rfl

end

@[simp] theorem enteringColumn_mirror (tol : α) :
    t.mirror.enteringColumn tol = t.enteringColumn tol := rfl

@[simp] theorem leavingRow_mirror (col : Nat) (tol : α) :
    t.mirror.leavingRow col tol = t.leavingRow col tol := rfl

@[simp] theorem tryLeavingRow_mirror (col : Int) (tol : α) :
    t.mirror.tryLeavingRow col tol = t.tryLeavingRow col tol := rfl

@[simp] theorem zeroCostColumns_mirror (tol : α) :
    t.mirror.zeroCostColumns tol = t.zeroCostColumns tol := rfl

@[simp] theorem tryPivot_mirror (row : Nat) (col : Int) :
    t.mirror.tryPivot row col = ((t.tryPivot row col).1.mirror, (t.tryPivot row col).2) := by
  unfold tryPivot
  simp only [columnAt?_mirror, rows_mirror, rowAt_mirror]
  cases t.columnAt? col with
  | none => rfl
  | some j =>
    by_cases hrow : t.rows.length < row
    · simp only [hrow, if_true]
    · by_cases hzero : ((t.rowAt row).entry j == 0) = true
      · simp only [hrow, hzero, if_true, if_false]
      · simp only [hrow, hzero, if_false]
        rfl

theorem valuesAfter_mirror (col : Int) (ratio : α) :
    t.mirror.valuesAfter col ratio = t.valuesAfter col ratio := by
  unfold valuesAfter
  rw [tryLeavingRow_mirror]
  congr 1
  funext found
  cases found with
  | none => rfl
  | some row =>
    simp only [tryPivot_mirror]
    obtain ⟨next, cause⟩ := t.tryPivot row col
    cases cause <;> rfl

@[simp] theorem otherOptimum_mirror (reducedCost ratio : α) :
    t.mirror.otherOptimum reducedCost ratio = t.otherOptimum reducedCost ratio := by
  unfold otherOptimum
  rw [zeroCostColumns_mirror]
  cases t.zeroCostColumns reducedCost with
  | nil => rfl
  | cons col rest => exact congrArg ((true, ·) <$> ·) (t.valuesAfter_mirror col ratio)

end Tableau

/-! ## Runs -/

/-- The run with the note of its tableau turned around. Its records do not show the note. -/
def Run.mirror (r : Run α) : Run α := { r with tableau := r.tableau.mirror }

/-- What a step comes to, with the note of its tableau turned around. -/
def Step.mirror : Step α → Step α
  | .optimal => .optimal
  | .pivoted next => .pivoted next.mirror
  | .failed reached cause => .failed reached.mirror cause

namespace Run

section

omit [Scalar α]

@[simp] theorem tableau_mirror (r : Run α) : r.mirror.tableau = r.tableau.mirror := rfl

@[simp] theorem iterations_mirror (r : Run α) : r.mirror.iterations = r.iterations := rfl

theorem start_mirror (t : Tableau α) : start t.mirror = mirror <$> start t := by
  unfold start
  simp only [map_bind]
  rfl

end

variable (s : Settings α) (r : Run α)

theorem pivotOn_mirror (row col : Nat) : r.mirror.pivotOn row col = (r.pivotOn row col).mirror := by
  unfold pivotOn
  simp only [tableau_mirror, iterations_mirror, Tableau.basis_mirror, Tableau.headers_mirror,
    Tableau.tryPivot_mirror]
  cases (r.tableau.basis[row]?).bind (itemAt? r.tableau.headers) with
  | none => rfl
  | some leaving =>
    simp only
    obtain ⟨next, cause⟩ := r.tableau.tryPivot row col
    cases cause with
    | some cause => rfl
    | none =>
      simp only [Tableau.snapshot_mirror]
      cases next.snapshot r.iterations.length (some (col : Int)) (some leaving) (some row) <;> rfl

/-- **One step** does not look at the note. -/
theorem step_mirror : r.mirror.step s = (r.step s).mirror := by
  unfold step
  simp only [pivotOn_mirror, tableau_mirror, Tableau.enteringColumn_mirror,
    Tableau.leavingRow_mirror, Tableau.headers_mirror]
  cases r.tableau.enteringColumn s.entering with
  | error cause => rfl
  | ok entering =>
    cases entering with
    | none => rfl
    | some col =>
      simp only
      cases r.tableau.leavingRow col s.ratio with
      | some row => rfl
      | none => cases r.tableau.headers[col]? <;> rfl

@[simp] theorem isStuck_mirror : r.mirror.isStuck s = r.isStuck s := rfl

theorem loop_mirror (fuel : Nat) :
    r.mirror.loop s fuel = ((r.loop s fuel).1.mirror, (r.loop s fuel).2) := by
  induction fuel generalizing r with
  | zero => rfl
  | succ fuel ih =>
    rw [loop, loop, step_mirror]
    cases r.step s with
    | optimal => rfl
    | failed reached cause => rfl
    | pivoted next =>
      simp only [Step.mirror, isStuck_mirror]
      by_cases hstuck : next.isStuck s = true
      · simp only [hstuck, if_true]
      · simp only [hstuck]
        exact ih next

/-- **Runs from the two tableaux** go on alike. -/
theorem finish_mirror : r.mirror.finish s = ((r.finish s).1.mirror, (r.finish s).2) :=
  loop_mirror s r (s.maxIterations.steps + 2)

theorem status_mirror (stop : Option Error) : r.mirror.status s stop = r.status s stop := by
  cases stop with
  | none => rfl
  | some cause => cases cause <;> rfl

theorem otherOptimum_mirror (status : Status) :
    r.mirror.otherOptimum s status = r.otherOptimum s status := by
  cases status with
  | optimal =>
    unfold otherOptimum
    simp only [tableau_mirror, Tableau.otherOptimum_mirror]
    rfl
  | _ => rfl

end Run

/-! ## Events -/

/-- Only events that show an objective value change. -/
theorem Event.mirror_ofIteration? (iterations : List (Iteration α)) :
    (iterations.filterMap Event.ofIteration?).map Event.mirror =
      iterations.filterMap Event.ofIteration? := by
  have hfixed : ∀ i : Iteration α, (Event.ofIteration? i).map Event.mirror = Event.ofIteration? i :=
    fun i => by
      unfold Event.ofIteration?
      cases i.entering <;> cases i.leaving <;> cases i.pivotRow <;> cases i.pivotCol <;> rfl
  rw [List.map_filterMap]
  exact congrArg (List.filterMap · iterations) (funext hfixed)

theorem mirror_stopEvent (stop : Option Error) :
    (stopEvent stop : List (Event α)).map Event.mirror = stopEvent stop := by
  cases stop with
  | none => rfl
  | some cause => cases cause <;> rfl

theorem Run.mirror_of_otherOptimum {s : Settings α} {r : Run α} {status : Status}
    {found : Bool × Option (List α)} {events : List (Event α)}
    (h : r.otherOptimum s status = .ok (found, events)) : events.map Event.mirror = events := by
  cases status with
  | optimal =>
    unfold otherOptimum at h
    cases hfound : r.tableau.otherOptimum s.reducedCost s.ratio with
    | error cause =>
      rw [hfound] at h
      cases h
    | ok found =>
      rw [hfound] at h
      simp only [bind, Except.bind] at h
      split at h <;> cases h <;> rfl
  | _ => cases h; rfl

/-! ## Solves -/

variable [LawfulNeg α]

/-- **A solve of the mirror image** comes to the mirror image of the solution, with the same pivots
and the same records, or fails for the same cause. -/
theorem solveLogged_mirror (p : Problem α) (s : Settings α) :
    solveLogged p.mirror s false =
      (fun result => (result.1.mirror, result.2.map Event.mirror)) <$> solveLogged p s false := by
  unfold solveLogged
  rw [Tableau.ofProblem_mirror]
  simp only [bind_map_left, Run.start_mirror, map_bind]
  congr 1
  funext t
  congr 1
  funext first
  simp only [Run.finish_mirror, Run.status_mirror, Run.otherOptimum_mirror]
  obtain ⟨last, stop⟩ := first.finish s
  simp only
  cases last.status s stop with
  | error cause => rfl
  | ok status =>
    cases hother : last.otherOptimum s status with
    | error cause => simp only [hother, bind, Except.bind]
    | ok other =>
      obtain ⟨⟨multiple, alternate⟩, events⟩ := other
      have hevents : (last.iterations.filterMap Event.ofIteration? ++ stopEvent stop ++ events ++
          [Event.solved status last.tableau.objectiveValue last.pivots]).map Event.mirror =
          last.iterations.filterMap Event.ofIteration? ++ stopEvent stop ++ events ++
            [.solved status (-last.tableau.objectiveValue) last.pivots] := by
        simp only [List.map_append, Event.mirror_ofIteration?, mirror_stopEvent,
          Run.mirror_of_otherOptimum hother]
        rfl
      simp only [hother, bind, Except.bind]
      rw [Run.tableau_mirror, Tableau.objectiveValue_mirror, Tableau.shadowPrices_mirror]
      show Except.ok (_, _) = Except.ok (_, List.map Event.mirror _)
      rw [hevents]
      rfl

theorem solve_mirror (p : Problem α) (s : Settings α) :
    solve p.mirror s false = Solution.mirror <$> solve p s false := by
  unfold solve
  rw [solveLogged_mirror]
  cases solveLogged p s false <;> rfl

end TableauSimplex
