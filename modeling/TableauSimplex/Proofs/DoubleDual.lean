import TableauSimplex.Proofs.Dual

/-!
# The dual of the dual

A dual can be read as a program, whose variables are the unknowns (`Dual.toProblem`). When all
unknowns are nonnegative that program says as much as the dual does, and it has a dual of its own.
The columns of the first dual are the rows of the second (`Problem.column_toProblem`), the right
sides become the objective and the objective the right sides, so that the second dual is the program
again (`double_dual`).

* `Problem.NaturalSigns`: every constraint gives its unknown the restriction to nonnegative values.
-/

namespace TableauSimplex

@[simp] theorem Sense.flipped_flipped (s : Sense) : s.flipped.flipped = s := by
  cases s <;> rfl

/-- The sign that is natural for a sense is that of the dual of a program with the other sense. -/
theorem Restriction.ofSign_eq_nonNegative_iff {sense : Sense} {sign : Sign} :
    ofSign sense sign = nonNegative ↔ sign = Dual.constraintSign sense.flipped := by
  cases sense <;> cases sign <;> decide

/-- A dual as a program, with the unknowns for variables. The restrictions of the unknowns are left
out: the variables of a program are nonnegative. -/
def Dual.toProblem (d : Dual Rat) : Problem Rat where
  sense := d.sense
  names := d.unknowns.map (·.1)
  objective := d.objective
  constraints := d.constraints

namespace Problem

variable {p : Problem Rat} {i : Nat}

/-- Every constraint has the sign that is natural for the sense. -/
def NaturalSigns (p : Problem Rat) : Prop :=
  ∀ c ∈ p.constraints, Restriction.ofSign p.sense c.sign = .nonNegative

instance : Decidable p.NaturalSigns :=
  inferInstanceAs (Decidable (∀ c ∈ p.constraints, Restriction.ofSign p.sense c.sign = _))

/-- The unknowns of the dual are restricted as the signs of the constraints say. -/
theorem forall_unknowns_dual_iff :
    (∀ u ∈ p.dual.unknowns, u.2 = .nonNegative) ↔ p.NaturalSigns := by
  rw [NaturalSigns, List.forall_mem_iff_getElem, List.forall_mem_iff_getElem]
  simp [dual]

theorem numVars_toProblem : p.dual.toProblem.numVars = p.constraints.length := by
  simp [numVars, Dual.toProblem, dual]

/-- **The dual has a coefficient for every unknown,** whatever the program looks like. -/
theorem regular_toProblem (p : Problem Rat) : p.dual.toProblem.Regular where
  objective := by
    rw [numVars_toProblem]
    exact List.length_map _
  constraints c hc := by
    obtain ⟨j, -, rfl⟩ := List.mem_map.mp hc
    rw [numVars_toProblem]
    exact List.length_map _

/-- The constraints of the dual have the sign that is natural for its sense. -/
theorem naturalSigns_toProblem (p : Problem Rat) : p.dual.toProblem.NaturalSigns := by
  intro c hc
  obtain ⟨j, -, rfl⟩ := List.mem_map.mp hc
  exact Restriction.ofSign_eq_nonNegative_iff.mpr (congrArg Dual.constraintSign
    (Sense.flipped_flipped p.sense).symm)

/-- A list is made of its entries. -/
theorem map_range_getD (xs : List Rat) {n : Nat} (h : xs.length = n) :
    ((List.range n).map fun j => xs.getD j 0) = xs := by
  subst h
  refine List.ext_getElem (by simp) fun j hj hj' => ?_
  rw [List.getElem_map, List.getElem_range, List.getD_eq_getElem _ _ hj']

section

variable (hp : p.Regular)

include hp

/-- **The columns of the dual are the rows of the program.** -/
theorem column_toProblem (hi : i < p.constraints.length) :
    p.dual.toProblem.column i = (p.constraintAt i).coefficients := by
  have hlen : (p.constraintAt i).coefficients.length = p.numVars := by
    rw [constraintAt_of_lt hi]
    exact hp.constraints _ (List.getElem_mem hi)
  rw [← map_range_getD _ hlen]
  show ((List.range p.numVars).map _).map _ = _
  rw [List.map_map]
  exact List.map_congr_left fun j _ => getD_column hi

/-- **The right sides of the dual are the objective of the program.** -/
theorem rhs_toProblem : p.dual.toProblem.constraints.map (·.rhs) = p.objective := by
  show ((List.range p.numVars).map _).map _ = _
  rw [List.map_map]
  exact map_range_getD _ hp.objective

/-- **The constraints of the second dual** are those of the program when their signs are natural. -/
theorem constraints_dual_toProblem (hn : p.NaturalSigns) :
    p.dual.toProblem.dual.constraints = p.constraints := by
  have hlen : p.dual.toProblem.dual.constraints.length = p.constraints.length := by
    rw [dual, List.length_map, List.length_range, numVars_toProblem]
  refine List.ext_getElem hlen fun i hi hi' => ?_
  have hsign : Dual.constraintSign p.sense.flipped = p.constraints[i].sign :=
    (Restriction.ofSign_eq_nonNegative_iff.mp (hn _ (List.getElem_mem hi'))).symm
  have hrhs : p.dual.objective.getD i 0 = p.constraints[i].rhs := by
    rw [dual, getD_rhs, constraintAt_of_lt hi']
  calc p.dual.toProblem.dual.constraints[i]
      = ⟨p.dual.toProblem.column i, Dual.constraintSign p.sense.flipped,
          p.dual.objective.getD i 0⟩ := by
        simp only [dual, List.getElem_map, List.getElem_range]
        rfl
    _ = p.constraints[i] := by
        rw [column_toProblem hp hi', hsign, hrhs, constraintAt_of_lt hi']

end

end Problem

/-- **The dual of the dual is the program.** When all signs are natural for the sense, so that the
unknowns of the dual are nonnegative, the dual can be read as a program. Its own dual has the sense,
the objective and the constraints of the first program, and the unknowns, one for each variable, are
nonnegative too. -/
theorem double_dual {p : Problem Rat} (hp : p.Regular) (hn : p.NaturalSigns) :
    ∃ d, Dual.ofProblem p = .ok d ∧ (∀ u ∈ d.unknowns, u.2 = .nonNegative) ∧
      ∃ e, Dual.ofProblem d.toProblem = .ok e ∧ e.sense = p.sense ∧ e.objective = p.objective ∧
        e.constraints = p.constraints ∧ e.unknowns.length = p.numVars ∧
        ∀ u ∈ e.unknowns, u.2 = .nonNegative := by
  refine ⟨p.dual, Dual.ofProblem_eq hp, Problem.forall_unknowns_dual_iff.mpr hn,
    p.dual.toProblem.dual, Dual.ofProblem_eq p.regular_toProblem, Sense.flipped_flipped _,
    Problem.rhs_toProblem hp, Problem.constraints_dual_toProblem hp hn, ?_,
    Problem.forall_unknowns_dual_iff.mpr p.naturalSigns_toProblem⟩
  rw [Problem.dual, List.length_mapIdx, ← hp.objective, ← Problem.rhs_toProblem hp,
    List.length_map]

/-- A minimized program with two variables and three constraints. -/
def threeNeeds : Problem Rat where
  sense := .minimize
  names := [.text "x", .text "y"]
  objective := [6, 9]
  constraints := [⟨[2, 1], .atLeast, 4⟩, ⟨[0, 3], .atLeast, -1⟩, ⟨[1, -5], .atLeast, 2⟩]

/-- Three unknowns and two constraints on the way, and a negative right side in the objective. -/
theorem double_dual_threeNeeds :
    ∃ d, Dual.ofProblem threeNeeds = .ok d ∧ d.objective = [4, -1, 2] ∧
      d.constraints.map (·.coefficients) = [[2, 0, 1], [1, 3, -5]] ∧
      ∃ e, Dual.ofProblem d.toProblem = .ok e ∧ e.sense = .minimize ∧ e.objective = [6, 9] ∧
        e.constraints = threeNeeds.constraints := by
  have hp : threeNeeds.Regular := by decide +kernel
  obtain ⟨d, hd, -, e, he, hsense, hobjective, hconstraints, -⟩ :=
    double_dual hp (by decide : threeNeeds.NaturalSigns)
  cases (Dual.ofProblem_eq hp).symm.trans hd
  exact ⟨_, hd, rfl, rfl, e, he, hsense, hobjective, hconstraints⟩

end TableauSimplex
