import TableauSimplex.Proofs.Search.Candidate

/-!
# What a search finds

A search that trusts its relaxations is as good as they are. At every state each integer point of
the program still lies in an open node, is matched by the best candidate, or lies in a node that was
dropped because its relaxation was not solved to an optimum (`Search.Covers`). An integer point that
is better than the answer of a search therefore lies in a node that was dropped (`drops_of_better`),
and so does every integer point where there is no answer (`drops_of_none`).

Where the verdicts on all relaxations are right, a search that ends by itself finds the best integer
point, and finds none only if there is none (`searchInteger_of_rightVerdicts`).
-/

namespace TableauSimplex

variable {p : Problem Rat} {s : Settings Rat} {x : List Rat}

/-! ## Comparisons -/

theorem Sense.improves_some (d : Sense) (z best : Rat) :
    d.improves z (some best) = true ↔ d.orient best < d.orient z := by
  rw [← d.better_iff]
  cases d <;> simp [improves, Better]

/-- What does not improve on the best value is no better than one that there is. -/
theorem Sense.exists_of_not_improves {d : Sense} {z : Rat} {best : Option Rat}
    (h : d.improves z best = false) : ∃ b, best = some b ∧ d.orient z ≤ d.orient b := by
  cases best with
  | none => cases h
  | some b =>
    refine ⟨b, rfl, not_lt.mp fun hlt => ?_⟩
    rw [(d.improves_some z b).mpr hlt] at h
    cases h

/-! ## Verdicts -/

/-- The verdict of a solution is right: an optimum is one, and where none is reported there is no
integer point. -/
structure Problem.RightVerdict (p : Problem Rat) (sol : Solution Rat) : Prop where
  optimal : sol.status = .optimal → p.Optimum sol
  other : sol.status ≠ .optimal → ∀ x, ¬p.IntegerFeasible x

/-! ## The account of integer points -/

namespace Search

variable {st next : Search Rat} {node : Node Rat} {rest : List (Node Rat)} {outcome : Outcome}

/-- A point lies in a node that was dropped without an optimum of its relaxation. -/
def Drops (p : Problem Rat) (s : Settings Rat) (x : List Rat) : Prop :=
  ∃ node sol, Expands p s node sol ∧ sol.status ≠ .optimal ∧ (node.program p).Feasible x

/-- Where an integer point of the program is at a state of the search: in an open node, matched by
the best candidate, or in a node that was dropped. -/
def Accounts (p : Problem Rat) (s : Settings Rat) (st : Search Rat) (x : List Rat) : Prop :=
  (∃ node ∈ st.stack, (node.program p).Feasible x) ∨
    (∃ best, st.best = some best ∧ p.sense.orient (p.objectiveAt x) ≤ p.sense.orient best) ∨
    Drops p s x

/-- What holds of every state of a search whose relaxations are solved to optima rightly. -/
structure Covers (p : Problem Rat) (s : Settings Rat) (st : Search Rat) : Prop where
  /-- The best candidate is an integer point of the program with its objective value. -/
  incumbent : ∀ sol, st.incumbent = some sol →
    p.IntegerFeasible sol.values ∧ sol.objectiveValue = p.objectiveAt sol.values
  /-- No integer point is lost. -/
  accounts : ∀ x, p.IntegerFeasible x → st.Accounts p s x

theorem covers_start (p : Problem Rat) (s : Settings Rat) : Covers p s (start p) where
  incumbent _ hsol := nomatch hsol
  accounts _ hx := .inl ⟨⟨p.constraints, none, 0⟩, List.mem_singleton.mpr rfl, hx.toFeasible⟩

/-- **A node that fails the test of bounds** has a parent whose optimum is no better than the best
candidate. -/
theorem exists_of_not_admits (h : st.admits p node = false) :
    ∃ z b, node.bound = some z ∧ st.best = some b ∧ p.sense.orient z ≤ p.sense.orient b := by
  rw [admits] at h
  cases hz : node.bound with
  | none =>
    rw [hz] at h
    cases h
  | some z =>
    rw [hz] at h
    obtain ⟨b, hb, hle⟩ := Sense.exists_of_not_improves h
    exact ⟨z, b, rfl, hb, hle⟩

/-- The best value never gets worse. -/
theorem exists_best_of_advances (ha : Advances p s st node rest outcome next) {b : Rat}
    (hb : st.best = some b) :
    ∃ b', next.best = some b' ∧ p.sense.orient b ≤ p.sense.orient b' := by
  have hfits := ha.settles.fits
  rw [best, ha.settles.incumbent]
  cases outcome with
  | accepted sol =>
    obtain ⟨-, himproves, -⟩ := hfits
    have hb : (st.popped rest).best = some b := hb
    rw [hb, p.sense.improves_some] at himproves
    exact ⟨_, rfl, himproves.le⟩
  | _ => exact ⟨b, hb, le_refl _⟩

variable
  (hopt : ∀ node sol, Expands p s node sol → sol.status = .optimal → (node.program p).Optimum sol)
  (hr : Reaches p s (start p) st)

include hopt hr

/-- **The optimum of its parent bounds a node.** -/
theorem Reaches.le_bound : ∀ node ∈ st.stack, ∀ z, node.bound = some z →
    ∀ x, (node.program p).Feasible x → p.sense.orient (p.objectiveAt x) ≤ p.sense.orient z := by
  refine hr.forall_mem_stack (P := fun node => ∀ z, node.bound = some z → ∀ x,
    (node.program p).Feasible x → p.sense.orient (p.objectiveAt x) ≤ p.sense.orient z)
    nofun ?_
  rintro node sol b - he ho - z ⟨⟩ x hx
  exact (hopt node sol he ho).orient_le (Node.feasible_half_iff.mp hx).1

variable (ha : Advances p s st node rest outcome next)

include ha

/-- **Where the integer points of the next node go.** -/
private theorem accounts_of_node (hx : (node.program p).Feasible x)
    (hw : ∀ a ∈ x, ∃ k : Int, (k : Rat) = a) : next.Accounts p s x := by
  have hmem : node ∈ st.stack := by rw [ha.stack]; exact List.mem_cons_self
  have hfits := ha.settles.fits
  have hbest : ∀ {b}, st.best = some b → p.sense.orient (p.objectiveAt x) ≤ p.sense.orient b →
      next.Accounts p s x := fun hb hle => by
    obtain ⟨b', hb', hle'⟩ := exists_best_of_advances ha hb
    exact .inr (.inl ⟨b', hb', hle.trans hle'⟩)
  cases outcome with
  | skipped =>
    -- The parent's optimum bounds the point and does not improve on the best candidate.
    obtain ⟨z, b, hz, hb, hle⟩ := exists_of_not_admits ha.admits
    exact hbest hb ((hr.le_bound hopt node hmem z hz x hx).trans hle)
  | dropped sol => exact .inr (.inr ⟨node, sol, ha.expands hr rfl, hfits, hx⟩)
  | beaten sol =>
    obtain ⟨hstatus, hnot⟩ := hfits
    obtain ⟨b, hb, hle⟩ := Sense.exists_of_not_improves hnot
    exact hbest hb (((hopt node sol (ha.expands hr rfl) hstatus).orient_le hx).trans hle)
  | accepted sol =>
    obtain ⟨hstatus, -⟩ := hfits
    refine .inr (.inl ⟨sol.objectiveValue, ?_, ?_⟩)
    · rw [best, ha.settles.incumbent]
      rfl
    · exact (hopt node sol (ha.expands hr rfl) hstatus).orient_le hx
  | split sol j =>
    obtain ⟨hstatus, -, hj⟩ := hfits
    obtain ⟨hj, -⟩ := lt_distance_of_some hj
    have hlen := (hopt node sol (ha.expands hr rfl) hstatus).feasible.length
    rcases Node.exists_half hx hw (hlen ▸ hj) with h | h
    · refine .inl ⟨_, ?_, h⟩
      rw [ha.settles.stack]
      exact List.mem_append_left _ (List.mem_cons_of_mem _ (List.mem_singleton.mpr rfl))
    · refine .inl ⟨_, ?_, h⟩
      rw [ha.settles.stack]
      exact List.mem_append_left _ List.mem_cons_self

/-- **One turn keeps the account.** -/
theorem Covers.advances (hc : Covers p s st) (hi : s.integrality = 0) : Covers p s next := by
  constructor
  case incumbent =>
    intro sol hsol
    rw [ha.settles.incumbent] at hsol
    cases outcome with
    | accepted sol' =>
      cases hsol
      obtain ⟨hstatus, -, hnone⟩ := ha.settles.fits
      have hcandidate := (ha.expands hr rfl).candidate hopt hstatus hnone
      rw [hi] at hcandidate
      exact ⟨⟨hcandidate.feasible, fun a ham => exists_whole_of_distance (hcandidate.near a ham)⟩,
        hcandidate.objectiveValue⟩
    | _ => exact hc.incumbent sol hsol
  case accounts =>
    intro x hx
    rcases hc.accounts x hx with ⟨node', h, hx'⟩ | ⟨b, hb, hle⟩ | hdrops
    · rw [ha.stack] at h
      rcases List.mem_cons.mp h with rfl | h
      · exact accounts_of_node hopt hr ha hx' hx.whole
      · refine .inl ⟨node', ?_, hx'⟩
        rw [ha.settles.stack]
        exact List.mem_append_right _ h
    · obtain ⟨b', hb', hle'⟩ := exists_best_of_advances ha hb
      exact .inr (.inl ⟨b', hb', hle.trans hle'⟩)
    · exact .inr (.inr hdrops)

omit ha in
/-- **No integer point is lost** at any state of a search whose optima are right. -/
theorem Reaches.covers (hi : s.integrality = 0) : Covers p s st := by
  induction hr with
  | refl => exact covers_start p s
  | tail hprev hstep ih =>
    obtain ⟨node, rest, outcome, ha⟩ := advances_of_step hstep
    exact Covers.advances hopt hprev ha ih hi

end Search

/-! ## The answer of a search that ends by itself -/

section

variable
  (hopt : ∀ node sol, Search.Expands p s node sol → sol.status = .optimal →
    (node.program p).Optimum sol)
  (hi : s.integrality = 0) (hend : (searchInteger p s).search.isExhausted = false)

include hopt hi hend

/-- At the end every integer point is matched by the last candidate or was dropped. -/
private theorem exists_covers {answer : Option (Solution Rat)}
    (h : (searchInteger p s).answer = .ok answer) :
    ∃ final last : Search Rat, Search.Covers p s last ∧ final.Answers answer ∧
      final.incumbent = last.incumbent ∧ ∀ x, p.IntegerFeasible x →
        (∃ best, last.best = some best ∧
          p.sense.orient (p.objectiveAt x) ≤ p.sense.orient best) ∨ Search.Drops p s x := by
  obtain ⟨final, hrun, hexhausted, hanswers⟩ := exists_of_answer h
  obtain ⟨last, hends⟩ := Search.run_spec hrun
  have hcovers := Search.Reaches.covers hopt hends.reaches hi
  refine ⟨final, last, hcovers, hanswers, hends.incumbent, fun x hx => ?_⟩
  rcases hcovers.accounts x hx with ⟨node, h, -⟩ | h
  · rw [hends.stack (hexhausted ▸ hend)] at h
    cases h
  · exact h

/-- **An answer** is an integer point of the program, and every better one was dropped. -/
theorem drops_of_better {best : Solution Rat}
    (h : (searchInteger p s).answer = .ok (some best)) :
    p.IntegerFeasible best.values ∧ best.objectiveValue = p.objectiveAt best.values ∧
      ∀ x, p.IntegerFeasible x → p.sense.Better (p.objectiveAt x) best.objectiveValue →
        Search.Drops p s x := by
  obtain ⟨final, last, hcovers, ⟨sol, hsol, hvalues, hvalue, -⟩, hincumbent, hall⟩ :=
    exists_covers hopt hi hend h
  rw [hincumbent] at hsol
  obtain ⟨hfeasible, hobjective⟩ := hcovers.incumbent sol hsol
  rw [hvalues, hvalue]
  refine ⟨hfeasible, hobjective, fun x hx hbetter => ?_⟩
  rcases hall x hx with ⟨b, hb, hle⟩ | hdrops
  · rw [Search.best, hsol] at hb
    cases hb
    exact absurd hbetter ((p.sense.not_better_iff _ _).mpr hle)
  · exact hdrops

/-- **Without an answer** every integer point of the program was dropped. -/
theorem drops_of_none (h : (searchInteger p s).answer = .ok none) (hx : p.IntegerFeasible x) :
    Search.Drops p s x := by
  obtain ⟨final, last, -, hnone, hincumbent, hall⟩ := exists_covers hopt hi hend h
  rcases hall x hx with ⟨b, hb, -⟩ | hdrops
  · rw [Search.best, ← hincumbent, hnone] at hb
    cases hb
  · exact hdrops

end

/-- **A search whose relaxations are judged rightly finds the best integer point.** If it ends
without being stopped by the limit on nodes, its answer is an integer point of the program that no
other one beats, and there is no answer only if there is no integer point. -/
theorem searchInteger_of_rightVerdicts (hi : s.integrality = 0)
    (hright : ∀ node sol, Search.Expands p s node sol → (node.program p).RightVerdict sol)
    (hend : (searchInteger p s).search.isExhausted = false) :
    (∀ best, (searchInteger p s).answer = .ok (some best) →
      p.IntegerFeasible best.values ∧ ∀ x, p.IntegerFeasible x →
        ¬p.sense.Better (p.objectiveAt x) (p.objectiveAt best.values)) ∧
      ((searchInteger p s).answer = .ok none → ∀ x, ¬p.IntegerFeasible x) := by
  have hopt := fun node sol (he : Search.Expands p s node sol) => (hright node sol he).optimal
  have hkept : ∀ x, p.IntegerFeasible x → ¬Search.Drops p s x := by
    rintro x hx ⟨node, sol, he, hstatus, hx'⟩
    exact (hright node sol he).other hstatus x ⟨hx', hx.whole⟩
  constructor
  · intro best h
    obtain ⟨hfeasible, hvalue, hdrops⟩ := drops_of_better hopt hi hend h
    rw [hvalue] at hdrops
    exact ⟨hfeasible, fun x hx hbetter => hkept x hx (hdrops x hx hbetter)⟩
  · intro h x hx
    exact hkept x hx (drops_of_none hopt hi hend h hx)

/-- The best point lies between two integer points that are lower. -/
def tent : Problem Rat where
  sense := .maximize
  names := [.text "x", .text "y"]
  objective := [0, 1]
  constraints := [⟨[-4, 1], .atMost, 1⟩, ⟨[4, 1], .atMost, 5⟩]

/-- The search splits the tent in two and finds that no integer point is higher than one. -/
theorem searchInteger_of_rightVerdicts_tent :
    ∃ best, (searchInteger tent (.exact 100000)).answer = .ok (some best) ∧
      best.objectiveValue = 1 ∧ tent.IntegerFeasible best.values ∧
      ∀ x, tent.IntegerFeasible x → tent.objectiveAt x ≤ tent.objectiveAt best.values := by
  obtain ⟨best, h, -, hz⟩ := exists_answer tent (.exact 100000) .optimal 1 (by decide +kernel)
  have hright : ∀ node sol, Search.Expands tent (.exact 100000) node sol →
      (node.program tent).RightVerdict sol := fun node sol he => by
    have hstatus := he.status_mem [.optimal] 5 (by decide +kernel)
    refine ⟨he.optimum (by decide +kernel) (by decide +kernel) (Settings.exact_exact 100000), ?_⟩
    exact fun hne => absurd (List.mem_singleton.mp hstatus) hne
  obtain ⟨hfeasible, hbest⟩ :=
    (searchInteger_of_rightVerdicts rfl hright (by decide +kernel)).1 best h
  exact ⟨best, h, hz, hfeasible, fun x hx => not_lt.mp (hbest x hx)⟩

end TableauSimplex
