import TableauSimplex.Proofs.Search.Partition
import TableauSimplex.Proofs.Success

/-!
# Searches that do not fail

A search fails only where a relaxation does. The nodes of a regular program with a column are
regular programs with a column, as they descend from it, so that none of their relaxations fails
(`Search.Reaches.exists_solveLogged`). The graph of the answer can be drawn, as the solutions that a
search keeps are those of relaxations and have a value for every variable
(`Search.Reaches.exists_solve_eq`). So a search comes to an answer (`exists_answer_eq_ok`).
-/

namespace TableauSimplex

variable {p : Problem Rat} {s : Settings Rat}

/-! ## Relaxations -/

namespace Node.Descends

variable {node : Node Rat} (h : node.Descends p)

include h

theorem regular (hp : p.Regular) : (node.program p).Regular where
  objective := hp.objective
  constraints c hc := by
    obtain ⟨bounds, -, -, hconstraints⟩ := h
    have hc : c ∈ p.constraints ++ bounds.map (·.constraint p.numVars) := hconstraints ▸ hc
    rcases List.mem_append.mp hc with hc | hc
    · exact hp.constraints c hc
    · obtain ⟨b, -, rfl⟩ := List.mem_map.mp hc
      show ((List.replicate p.numVars (0 : Rat)).set b.index 1).length = p.numVars
      rw [List.length_set, List.length_replicate]

theorem hasColumn (hc : p.HasColumn) : (node.program p).HasColumn := by
  obtain ⟨bounds, -, -, hconstraints⟩ := h
  refine hc.imp_right fun hne => ?_
  show node.constraints ≠ []
  rw [hconstraints]
  exact List.append_ne_nil_of_left_ne_nil hne _

end Node.Descends

namespace Search

variable {st next : Search Rat}

/-! ## Turns -/

section

variable (hp : p.Regular) (hc : p.HasColumn) (hratio : 0 ≤ s.ratio)

include hp hc hratio

/-- **No relaxation fails** on the way from a regular program with a column. -/
theorem Reaches.exists_solveLogged (hr : Reaches p s (start p) st) :
    ∀ node ∈ st.stack, ∃ result, solveLogged (node.program p) s false = .ok result := by
  intro node hnode
  have hdescends := hr.descends node hnode
  exact TableauSimplex.exists_solveLogged (hdescends.regular hp) (hdescends.hasColumn hc) hratio
    false

/-- **A search does not fail.** -/
theorem run_succeeds : (run p s).2 = none := by
  obtain ⟨last, hr, hstops⟩ := run_stops p s
  obtain ⟨result, hrun⟩ : ∃ e, run p s = e := ⟨_, rfl⟩
  rw [hrun] at hstops ⊢
  cases hstops with
  | @failed node rest cause hstack hfails =>
    have hnode : node ∈ last.stack := by rw [hstack]; exact List.mem_cons_self
    obtain ⟨result, hresult⟩ := hr.exists_solveLogged hp hc hratio node hnode
    rw [hfails] at hresult
    cases hresult
  | _ => rfl

end

/-- **The solutions that a search keeps** are those of relaxations. -/
theorem Reaches.exists_solve_eq (hr : Reaches p s (start p) st) :
    ∀ sol, st.root = some sol ∨ st.incumbent = some sol →
      ∃ node : Node Rat, solve (node.program p) s false = .ok sol := by
  induction hr with
  | refl =>
    rintro sol (h | h)
    · cases h
    · cases h
  | tail hprev hstep ih =>
    obtain ⟨node, rest, outcome, ha⟩ := advances_of_step hstep
    have hnode : ∀ sol, outcome.solution? = some sol →
        ∃ node : Node Rat, solve (node.program p) s false = .ok sol := fun sol hsol =>
      ⟨node, ha.settles.solves sol hsol⟩
    intro sol hsol
    rw [ha.settles.root, ha.settles.incumbent, Option.or_eq_some_iff] at hsol
    rcases hsol with (hroot | ⟨-, hroot⟩) | hincumbent
    · exact ih sol (.inl hroot)
    · exact hnode sol hroot
    · cases outcome with
      | accepted sol' => exact hnode sol hincumbent
      | _ => exact ih sol (.inr hincumbent)

end Search

/-! ## Answers -/

/-- Only programs with two variables have a graph. -/
theorem Plane.numVars_of_graph {values : List Rat} {z : Rat} {g : Plane.Graph Rat}
    (h : Plane.graph p values z s = .ok (some g)) : p.numVars = 2 := by
  by_contra hne
  rw [Plane.graph, if_pos (by simpa using hne)] at h
  cases h

private theorem exists_withIntegerGraph (hp : p.Regular) {root best : Solution Rat}
    (hroot : root.values.length = p.numVars) (hbest : best.values.length = p.numVars) :
    ∃ sol, withIntegerGraph p s root best = .ok sol := by
  refine exists_bind_eq_ok (Plane.exists_graph hp hroot) fun found hfound => ?_
  cases found with
  | none => exact ⟨best, rfl⟩
  | some g =>
    rw [Plane.numVars_of_graph hfound] at hbest
    obtain ⟨x, y, hxy⟩ := List.length_eq_two.mp hbest
    simp only [hxy]
    exact ⟨_, rfl⟩

/-- **A search comes to an answer,** whatever the limits, when every coefficient is there and there
is a column to choose from. -/
theorem exists_answer_eq_ok (hp : p.Regular) (hc : p.HasColumn) (hratio : 0 ≤ s.ratio) :
    ∃ answer, (searchInteger p s).answer = .ok answer := by
  have hsucceeds := Search.run_succeeds hp hc hratio (s := s)
  rw [searchInteger]
  obtain ⟨⟨final, stop⟩, hrun⟩ : ∃ e, Search.run p s = e := ⟨_, rfl⟩
  rw [hrun] at hsucceeds ⊢
  obtain rfl : stop = none := hsucceeds
  obtain ⟨last, hends⟩ := Search.run_spec hrun
  have hlength : ∀ sol, last.root = some sol ∨ last.incumbent = some sol →
      sol.values.length = p.numVars := fun sol hsol => by
    obtain ⟨node, hnode⟩ := hends.reaches.exists_solve_eq sol hsol
    exact Node.length_values hnode
  simp only
  split
  · rename_i best root hbest hroot
    have hroot : final.root = some root := hroot
    have hbest : final.answer = some best := hbest
    have hanswers := final.answers_answer
    rw [hbest] at hanswers
    obtain ⟨sol, hsol, hvalues, -⟩ := hanswers
    rw [hends.root] at hroot
    rw [hends.incumbent] at hsol
    have hlen : best.values.length = p.numVars := by
      rw [hvalues]
      exact hlength sol (.inr hsol)
    obtain ⟨answer, hanswer⟩ :=
      exists_withIntegerGraph (s := s) hp (hlength root (.inl hroot)) hlen
    exact ⟨some answer, by rw [hanswer]; rfl⟩
  · exact ⟨_, rfl⟩

end TableauSimplex
