import TableauSimplex.Proofs.Except
import TableauSimplex.Proofs.Problem
import TableauSimplex.Dual

/-!
# The dual of a regular program

A regular program always has a dual (`Dual.ofProblem_eq`), whose constraints are the columns of the
program. `Dual.Admits` says when prices satisfy a dual up to a tolerance: the constraints and the
restrictions of the unknowns both.
-/

namespace TableauSimplex

namespace Restriction

/-- A value keeps a restriction up to a tolerance. -/
def Admits (tol : Rat) : Restriction → Rat → Prop
  | nonNegative, y => -tol ≤ y
  | nonPositive, y => y ≤ tol
  | unrestricted, _ => True

instance (r : Restriction) (tol y : Rat) : Decidable (r.Admits tol y) :=
  match r with
  | nonNegative => inferInstanceAs (Decidable (-tol ≤ y))
  | nonPositive => inferInstanceAs (Decidable (y ≤ tol))
  | unrestricted => inferInstanceAs (Decidable True)

end Restriction

/-- Prices satisfy a dual up to a tolerance, one price for every unknown. -/
structure Dual.Admits (d : Dual Rat) (prices : List Rat) (tol : Rat) : Prop where
  constraints : ∀ c ∈ d.constraints, c.isSatisfied prices tol = true
  restrictions : List.Forall₂ (fun u y => u.2.Admits tol y) d.unknowns prices

instance (d : Dual Rat) (prices : List Rat) (tol : Rat) : Decidable (d.Admits prices tol) :=
  decidable_of_iff ((∀ c ∈ d.constraints, c.isSatisfied prices tol = true) ∧
    List.Forall₂ (fun u y => u.2.Admits tol y) d.unknowns prices)
    ⟨fun h => ⟨h.1, h.2⟩, fun h => ⟨h.constraints, h.restrictions⟩⟩

variable {p : Problem Rat}

/-- The coefficients of one variable, constraint by constraint. -/
def Problem.column (p : Problem Rat) (j : Nat) : List Rat :=
  p.constraints.map (·.coefficients.getD j 0)

theorem Problem.getD_column {i j : Nat} (hi : i < p.constraints.length) :
    (p.column j).getD i 0 = (p.constraintAt i).coefficients.getD j 0 := by
  rw [column, List.getD_eq_getElem _ _ (by simpa using hi), List.getElem_map,
    constraintAt_of_lt hi]

/-- The dual of a regular program. -/
def Problem.dual (p : Problem Rat) : Dual Rat where
  sense := p.sense.flipped
  unknowns := p.constraints.mapIdx fun i c =>
    (Name.numbered "y" (i + 1), Restriction.ofSign p.sense c.sign)
  constraints := (List.range p.numVars).map fun j =>
    ⟨p.column j, Dual.constraintSign p.sense, p.objective.getD j 0⟩
  objective := p.constraints.map (·.rhs)

theorem Dual.entryAt_eq {xs : List Rat} {j : Nat} (h : j < xs.length) :
    entryAt xs j = .ok (xs.getD j 0) := by
  rw [entryAt, List.getElem?_eq_getElem h, List.getD_eq_getElem _ _ h]

/-- **A regular program has a dual.** -/
theorem Dual.ofProblem_eq (hp : p.Regular) : Dual.ofProblem p = .ok p.dual := by
  have hcolumns : (List.range p.numVars).mapM (fun j => do
      let column ← p.constraints.mapM fun c : Constraint Rat => entryAt c.coefficients j
      return (⟨column, constraintSign p.sense, ← entryAt p.objective j⟩ : Constraint Rat)) =
      .ok p.dual.constraints := by
    refine mapM_eq_ok fun j hj => ?_
    have hn := List.mem_range.mp hj
    have hc : p.constraints.mapM (fun c : Constraint Rat => entryAt c.coefficients j) =
        .ok (p.column j) :=
      mapM_eq_ok fun c hc => entryAt_eq (by rw [hp.constraints c hc]; exact hn)
    rw [hc, entryAt_eq (by rw [hp.objective]; exact hn)]
    rfl
  unfold ofProblem
  rw [hcolumns]
  rfl

end TableauSimplex
