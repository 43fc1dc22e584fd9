import TableauSimplex.Proofs.Search.Nodes

/-!
# What a search keeps as its best candidate

A candidate comes from the relaxation of a node deep in the search, with bounds on single variables
added, and is kept over any number of later turns. Nodes are parts of the program, so it is a
feasible point of the program itself, with its own objective value and with coordinates that the
choice of a variable found near to whole numbers (`Search.Reaches.candidate`).

* `searchInteger_candidate`: every solution that a search returns is such a point, also when the
  limit on nodes stopped the search.
-/

namespace TableauSimplex

variable {p : Problem Rat} {s : Settings Rat} {sol : Solution Rat}

/-- A solution is a feasible point of a program with its objective value, and its coordinates are
near to whole numbers up to a tolerance. -/
structure Problem.Candidate (p : Problem Rat) (tol : Rat) (sol : Solution Rat) : Prop where
  status : sol.status = .optimal
  feasible : p.Feasible sol.values
  objectiveValue : sol.objectiveValue = p.objectiveAt sol.values
  near : ∀ a ∈ sol.values, wholeDistance a ≤ tol

namespace Search

variable
  (hopt : ∀ node sol, Expands p s node sol → sol.status = .optimal → (node.program p).Optimum sol)

include hopt

/-- **An optimum without a variable to branch on is a candidate,** at whatever node it was found. -/
theorem Expands.candidate {node : Node Rat} (he : Expands p s node sol)
    (ho : sol.status = .optimal) (hnone : mostFractional sol.values s.integrality = .ok none) :
    p.Candidate s.integrality sol := by
  have hoptimum := hopt node sol he ho
  obtain ⟨st, rest, hr, hstack, -⟩ := he.onWay
  have hmem : node ∈ st.stack := by simp [hstack]
  exact {
    status := ho
    feasible := hr.within node hmem _ hoptimum.feasible
    objectiveValue := hoptimum.objectiveValue
    near := distance_le_of_none hnone }

/-- **The best candidate** is one at every state of a search. -/
theorem Reaches.candidate {st : Search Rat} (hr : Reaches p s (start p) st) :
    ∀ sol, st.incumbent = some sol → p.Candidate s.integrality sol := by
  induction hr with
  | refl =>
    intro sol hsol
    cases hsol
  | tail hprev hstep ih =>
    obtain ⟨node, rest, outcome, ha⟩ := advances_of_step hstep
    intro sol hsol
    rw [ha.settles.incumbent] at hsol
    cases outcome with
    | accepted sol' =>
      cases hsol
      obtain ⟨ho, -, hnone⟩ := ha.settles.fits
      exact (ha.expands hprev rfl).candidate hopt ho hnone
    | _ => exact ih sol hsol

end Search

/-- **A solution that a search returns** is a point of the program itself: its coordinates are
nonnegative and near to whole numbers, it satisfies every constraint exactly, and the objective
value is its own. It is reported as optimal unless the limit on nodes stopped the search. -/
theorem searchInteger_candidate (hp : p.Regular) (hb : ∀ c ∈ p.constraints, 0 ≤ c.rhs)
    (hs : s.Exact) {best : Solution Rat} (h : (searchInteger p s).answer = .ok (some best)) :
    (best.status = if (searchInteger p s).search.isExhausted then .nodeLimit else .optimal) ∧
      p.Feasible best.values ∧ (∀ a ∈ best.values, ∃ k : Int, |a - k| ≤ s.integrality) ∧
      best.objectiveValue = p.objectiveAt best.values := by
  obtain ⟨final, hrun, hexhausted, sol, hsol, hvalues, hvalue, hstatus⟩ := exists_of_answer h
  obtain ⟨last, hends⟩ := Search.run_spec hrun
  rw [hends.incumbent] at hsol
  have hcandidate := hends.reaches.candidate (fun _ _ he => he.optimum hp hb hs) sol hsol
  rw [hvalues, hvalue, hstatus, hexhausted, hcandidate.status]
  exact ⟨rfl, hcandidate.feasible, fun a ha => exists_near_of_distance (hcandidate.near a ha),
    hcandidate.objectiveValue⟩

/-- Two upper bounds and a lower one. The second variable is fractional at the first candidate. -/
def slantedStrip : Problem Rat where
  sense := .maximize
  names := [.text "x", .text "y"]
  objective := [5, 4]
  constraints := [⟨[7, 5], .atMost, 23⟩, ⟨[1, 2], .atMost, 6⟩, ⟨[1, 1], .atLeast, 2⟩]

/-- A search with a wide tolerance that is stopped after two nodes. -/
theorem searchInteger_candidate_slantedStrip :
    ∃ best, (searchInteger slantedStrip { Settings.exact 100000 with
        integrality := 1 / 5, maxNodes := .whole 2 }).answer = .ok (some best) ∧
      best.status = .nodeLimit ∧ best.objectiveValue = 86 / 5 ∧
      slantedStrip.Feasible best.values ∧ (∀ a ∈ best.values, ∃ k : Int, |a - k| ≤ 1 / 5) ∧
      slantedStrip.objectiveAt best.values = 86 / 5 := by
  obtain ⟨best, h, hstatus, hz⟩ := exists_answer slantedStrip { Settings.exact 100000 with
    integrality := 1 / 5, maxNodes := .whole 2 } .nodeLimit (86 / 5) (by decide +kernel)
  obtain ⟨-, hfeasible, hnear, hvalue⟩ := searchInteger_candidate (by decide +kernel)
    (by decide +kernel) ⟨rfl, rfl, rfl⟩ h
  exact ⟨best, h, hstatus, hz, hfeasible, hnear, hvalue.symm.trans hz⟩

end TableauSimplex
