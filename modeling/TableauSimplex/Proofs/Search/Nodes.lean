import TableauSimplex.Proofs.Optimum
import TableauSimplex.Proofs.Search.Turn

/-!
# The nodes that a search expands

Nodes come from the root by splitting nodes whose relaxation is solved to an optimum, so that what
the root has and halves keep holds of all of them (`Reaches.forall_mem_stack`).

* `Node.Fits`: the constraints of a node are those of the program and nonnegative bounds on its
  variables. That holds of every node when the program is regular with nonnegative right sides and
  nothing is overlooked in the ratio test and the test for artificial variables (`Expands.fits`). So
  the relaxations that are reported as optimal have feasible solutions (`Expands.feasible`), which
  are optima without any tolerance (`Expands.optimum`).
* `Expands.eq_root`: only the root has no parent. A search whose root is dropped finds nothing
  (`Reaches.incumbent_eq_none`).
-/

namespace TableauSimplex

variable {p : Problem Rat} {s : Settings Rat} {node : Node Rat} {sol : Solution Rat}

/-! ## What halves keep -/

namespace Search

variable {st : Search Rat} {P : Node Rat → Prop}

/-- The halves of a node have a property that the node has, when its relaxation is solved to an
optimum and it is split there. -/
def KeptByHalves (p : Problem Rat) (s : Settings Rat) (P : Node Rat → Prop) : Prop :=
  ∀ node sol b, P node → Expands p s node sol → sol.status = .optimal →
    VariableBound.NextTo sol.values b → P (node.half p sol.objectiveValue b)

variable (hroot : P ⟨p.constraints, none, 0⟩) (hkept : KeptByHalves p s P)

include hroot hkept

/-- **What the root has and halves keep** holds of every open node. -/
theorem Reaches.forall_mem_stack (hr : Reaches p s (start p) st) : ∀ node ∈ st.stack, P node := by
  induction hr with
  | refl =>
    intro node hnode
    rw [List.mem_singleton.mp hnode]
    exact hroot
  | tail hprev hstep ih =>
    obtain ⟨node, rest, outcome, ha⟩ := advances_of_step hstep
    intro node' hnode'
    rw [ha.settles.stack] at hnode'
    rcases List.mem_append.mp hnode' with hhalf | hrest
    · cases outcome with
      | split sol j =>
        obtain ⟨ho, -, hj⟩ := ha.settles.fits
        obtain ⟨hj, -⟩ := lt_distance_of_some hj
        have hhalves := fun b => hkept node sol b
          (ih node (by rw [ha.stack]; exact List.mem_cons_self)) (ha.expands hprev rfl) ho
        rcases List.mem_pair.mp hhalf with rfl | rfl
        · exact hhalves _ (.above hj)
        · exact hhalves _ (.below hj)
      | _ => cases hhalf
    · exact ih node' (by rw [ha.stack]; exact List.mem_cons_of_mem _ hrest)

/-- It holds of every node that is expanded. -/
theorem Expands.of_keptByHalves (he : Expands p s node sol) : P node := by
  obtain ⟨st, rest, hr, hstack, -⟩ := he.onWay
  exact hr.forall_mem_stack hroot hkept node (by rw [hstack]; exact List.mem_cons_self)

end Search

/-! ## The constraints of nodes -/

/-- The coefficients of the constraints of a program and of the bounds on its variables. -/
def Problem.nodeCoefficients (p : Problem Rat) : Set (List Rat) :=
  {a | ∃ c ∈ p.constraints, c.coefficients = a} ∪
    {a | ∃ j < p.numVars, (List.replicate p.numVars 0).set j 1 = a}

theorem Problem.finite_nodeCoefficients (p : Problem Rat) : p.nodeCoefficients.Finite :=
  ((List.finite_toSet p.constraints).image _).union ((Set.finite_Iio p.numVars).image _)

namespace Node

/-- The constraints of a node are those of the program and nonnegative bounds on its variables. -/
structure Fits (p : Problem Rat) (node : Node Rat) : Prop where
  coefficients : ∀ c ∈ node.constraints, c.coefficients ∈ p.nodeCoefficients
  rhs_nonneg : ∀ c ∈ node.constraints, 0 ≤ c.rhs

theorem fits_root (hb : ∀ c ∈ p.constraints, 0 ≤ c.rhs) : Fits p ⟨p.constraints, none, 0⟩ where
  coefficients c hc := .inl ⟨c, hc, rfl⟩
  rhs_nonneg := hb

theorem Fits.regular (h : node.Fits p) (hp : p.Regular) : (node.program p).Regular where
  objective := hp.objective
  constraints c hc := by
    rcases h.coefficients c hc with ⟨c', hc', he⟩ | ⟨j, -, he⟩
    · rw [← he]
      exact hp.constraints c' hc'
    · rw [← he, List.length_set, List.length_replicate]
      rfl

theorem Fits.half (h : node.Fits p) {z : Rat} {b : VariableBound} (hj : b.index < p.numVars)
    (hl : 0 ≤ b.limit) : (node.half p z b).Fits p := by
  constructor
  · intro c hc
    rcases List.mem_append.mp hc with hc | hc
    · exact h.coefficients c hc
    · rw [List.mem_singleton.mp hc]
      exact .inr ⟨b.index, hj, rfl⟩
  · intro c hc
    rcases List.mem_append.mp hc with hc | hc
    · exact h.rhs_nonneg c hc
    · rw [List.mem_singleton.mp hc]
      exact Int.cast_nonneg hl

end Node

/-! ## Relaxations -/

/-- The solution of a relaxation has a value for every variable of the program. -/
theorem Node.length_values (h : solve (node.program p) s false = .ok sol) :
    sol.values.length = p.numVars :=
  length_values_of_solve (p := node.program p) h

namespace Search

section

variable (hp : p.Regular) (hb : ∀ c ∈ p.constraints, 0 ≤ c.rhs) (hr : s.ratio = 0)
  (hf : s.feasibility = 0)

include hp hr hf

/-- The values at an optimum are nonnegative, and so are the bounds next to them. -/
theorem keptByHalves_fits : KeptByHalves p s (Node.Fits p) := by
  intro node sol b h he ho hb
  have hsol := feasible_of_optimal (h.regular hp) h.rhs_nonneg hr hf he.solves ho
  have hv := Problem.getD_nonneg hsol.nonneg
  cases hb with
  | below hj => exact h.half (hsol.length ▸ hj) (Rat.le_floor_iff.mpr (hv _))
  | above hj => exact h.half (hsol.length ▸ hj) (Int.cast_nonneg_iff.mp ((hv _).trans Rat.le_ceil))

include hb

theorem Expands.fits (he : Expands p s node sol) : node.Fits p :=
  he.of_keptByHalves (Node.fits_root hb) (keptByHalves_fits hp hr hf)

/-- **Every relaxation that is reported as optimal** has a feasible point of the node as its
solution. -/
theorem Expands.feasible (he : Expands p s node sol) (ho : sol.status = .optimal) :
    (node.program p).Feasible sol.values := by
  have hfits := he.fits hp hb hr hf
  exact feasible_of_optimal (hfits.regular hp) hfits.rhs_nonneg hr hf he.solves ho

end

/-- **Without tolerances** it is solved to an optimum. -/
theorem Expands.optimum (hp : p.Regular) (hb : ∀ c ∈ p.constraints, 0 ≤ c.rhs) (hs : s.Exact)
    (he : Expands p s node sol) (ho : sol.status = .optimal) : (node.program p).Optimum sol := by
  have hfits := he.fits hp hb hs.ratio hs.feasibility
  exact optimum_of_exact (hfits.regular hp) hfits.rhs_nonneg hs he.solves ho

/-- **Nodes are parts of the program.** -/
theorem Reaches.within {st : Search Rat} (hr : Reaches p s (start p) st) :
    ∀ node ∈ st.stack, ∀ x, (node.program p).Feasible x → p.Feasible x :=
  hr.forall_mem_stack (P := fun node => ∀ x, (node.program p).Feasible x → p.Feasible x)
    (fun _ hx => hx) fun _ _ _ h _ _ _ x hx => h x (Node.feasible_half_iff.mp hx).1

/-! ## The root -/

/-- **Only the root has no parent.** -/
theorem Expands.eq_root (he : Expands p s node sol) (hroot : node.bound = none) :
    node = ⟨p.constraints, none, 0⟩ :=
  he.of_keptByHalves (P := fun node => node.bound = none → node = ⟨p.constraints, none, 0⟩)
    (fun _ => rfl) (fun _ _ _ _ _ _ _ => nofun) hroot

/-- **A search whose root is dropped** has no candidate at any state. -/
theorem Reaches.incumbent_eq_none {last : Search Rat} (hr : Reaches p s (start p) last)
    (he : Expands p s node sol) (hroot : node.bound = none) (hstatus : sol.status ≠ .optimal) :
    last.incumbent = none := by
  have hnode := he.eq_root hroot
  subst hnode
  rcases hr.cases_head with rfl | ⟨next, hstep, hr⟩
  · rfl
  obtain ⟨node, rest, outcome, ha⟩ := advances_of_step hstep
  cases ha.stack
  have hdropped : outcome = .dropped sol := by
    have hsome : outcome.solution?.isSome = true := ha.admits.symm
    obtain ⟨sol', hsol'⟩ := Option.isSome_iff_exists.mp hsome
    have hsame := ha.settles.solves sol' hsol'
    rw [he.solves] at hsame
    cases hsame
    have hfits := ha.settles.fits
    cases outcome with
    | skipped => cases hsol'
    | dropped _ => cases hsol'; rfl
    | beaten _ => cases hsol'; exact absurd hfits.1 hstatus
    | accepted _ => cases hsol'; exact absurd hfits.1 hstatus
    | split _ _ => cases hsol'; exact absurd hfits.1 hstatus
  subst hdropped
  have hstack : next.stack = [] := ha.settles.stack
  rcases hr.cases_head with rfl | ⟨_, hstep', -⟩
  · exact ha.settles.incumbent
  · rw [step, hstack] at hstep'
    cases hstep'

end Search

end TableauSimplex
