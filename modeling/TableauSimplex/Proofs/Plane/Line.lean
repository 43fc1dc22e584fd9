import TableauSimplex.Plane.Vertices
import TableauSimplex.Proofs.Elimination
import TableauSimplex.Proofs.Except

/-!
# Lines that cross

Two lines have a point in common exactly when the determinant of their coefficients is neither zero
nor below the tolerance, and then the point is on both (`Line.intersect_eq_some_iff`). Lines of
which no two cross have a common direction (`exists_direction`).

* `edges`: the boundary lines of a program with two variables. `boundaries_eq` says that they are
  found when every constraint has two coefficients.
-/

namespace TableauSimplex.Plane

/-- The line goes through a point. -/
def Line.Through (l : Line Rat) (x y : Rat) : Prop := l.a * x + l.b * y = l.rhs

/-- The determinant of the coefficients of two lines. It is zero when they are parallel. -/
def Line.cross (l m : Line Rat) : Rat := l.a * m.b - l.b * m.a

variable {l m : Line Rat} {tol : Rat} {lines : List (Line Rat)}

theorem Line.cross_swap (l m : Line Rat) : m.cross l = -l.cross m := by
  unfold cross
  ring

theorem Line.cross_self (l : Line Rat) : l.cross l = 0 := by
  unfold cross
  ring

/-- The two lines as a system of rows. -/
private theorem solveRows_lines_iff {x : List Rat} :
    solveRows [⟨[l.a, l.b], l.rhs⟩, ⟨[m.a, m.b], m.rhs⟩] tol = .ok x ↔
      tol ≤ |l.cross m| ∧ l.cross m ≠ 0 ∧ ∃ x₁ x₂, x = [x₁, x₂] ∧
        l.Through x₁ x₂ ∧ m.Through x₁ x₂ := by
  have hdet : (coefficientMatrix 2 [⟨[l.a, l.b], l.rhs⟩, ⟨[m.a, m.b], m.rhs⟩]).det =
      l.cross m := Matrix.det_fin_two _
  have hdot : ∀ (k : Line Rat) (x₁ x₂ : Rat),
      (⟨[k.a, k.b], k.rhs⟩ : Row Rat).Holds [x₁, x₂] ↔ k.Through x₁ x₂ := fun k x₁ x₂ => by
    rw [Row.Holds, Line.Through, Scalar.dot_cons, Scalar.dot_cons]
    simp [Scalar.dot, Scalar.sum_eq]
  rw [solveRows_eq_ok_iff (n := 2) rfl (by simp [Row.width]), hdet, List.length_eq_two]
  refine and_congr_right fun _ => and_congr_right fun _ => ?_
  constructor
  · rintro ⟨⟨x₁, x₂, rfl⟩, hx⟩
    refine ⟨x₁, x₂, rfl, ?_⟩
    simpa [hdot] using hx
  · rintro ⟨x₁, x₂, rfl, hx⟩
    refine ⟨⟨x₁, x₂, rfl⟩, ?_⟩
    simpa [hdot] using hx

/-- **When two lines have a point in common,** and which one. -/
theorem Line.intersect_eq_some_iff {q : Point Rat} :
    l.intersect m tol = some q ↔ tol ≤ |l.cross m| ∧ l.cross m ≠ 0 ∧ q.value = none ∧
      l.Through q.x q.y ∧ m.Through q.x q.y := by
  have hsome : l.intersect m tol = some q ↔ q.value = none ∧
      solveRows [⟨[l.a, l.b], l.rhs⟩, ⟨[m.a, m.b], m.rhs⟩] tol = .ok [q.x, q.y] := by
    obtain ⟨x, y, value⟩ := q
    rw [intersect]
    split
    · rename_i x' y' h
      simp [h, and_assoc, and_comm, eq_comm]
    · rename_i hne
      simp only [reduceCtorEq, false_iff, not_and]
      exact fun _ h => hne x y h
  rw [hsome, solveRows_lines_iff]
  constructor
  · rintro ⟨hv, htol, hne, x₁, x₂, hx, hl, hm⟩
    simp only [List.cons.injEq, and_true] at hx
    obtain ⟨rfl, rfl⟩ := hx
    exact ⟨htol, hne, hv, hl, hm⟩
  · rintro ⟨htol, hne, hv, hl, hm⟩
    exact ⟨hv, htol, hne, q.x, q.y, rfl, hl, hm⟩

/-- **Lines of which no two cross have a common direction.** -/
theorem exists_direction (h : ∀ l ∈ lines, ∀ m ∈ lines, l.cross m = 0) :
    ∃ u v : Rat, (u ≠ 0 ∨ v ≠ 0) ∧ ∀ l ∈ lines, l.a * u + l.b * v = 0 := by
  by_cases hzero : ∀ l ∈ lines, l.a = 0 ∧ l.b = 0
  · refine ⟨1, 0, .inl one_ne_zero, fun l hl => ?_⟩
    rw [(hzero l hl).1, (hzero l hl).2, zero_mul, zero_mul, add_zero]
  · push Not at hzero
    obtain ⟨k, hk, hne⟩ := hzero
    refine ⟨-k.b, k.a, ?_, fun l hl => ?_⟩
    · by_cases ha : k.a = 0
      · exact .inl (neg_ne_zero.mpr (hne ha))
      · exact .inr ha
    · have hcross := h k hk l hl
      unfold Line.cross at hcross
      linear_combination hcross

/-! ## Boundary lines -/

variable {p : Problem Rat}

/-- The boundary line of a constraint on two variables. -/
def edge (c : Constraint Rat) : Line Rat :=
  ⟨c.coefficients.getD 0 0, c.coefficients.getD 1 0, c.rhs⟩

/-- The boundary lines of a program with two variables. -/
def edges (p : Problem Rat) : List (Line Rat) := p.constraints.map edge ++ axes

/-- Every constraint has two coefficients. -/
def Planar (p : Problem Rat) : Prop := ∀ c ∈ p.constraints, c.coefficients.length = 2

instance : Decidable (Planar p) :=
  inferInstanceAs (Decidable (∀ c ∈ p.constraints, c.coefficients.length = 2))

theorem boundary_eq {c : Constraint Rat} (hc : c.coefficients.length = 2) :
    boundary c = .ok (edge c) := by
  obtain ⟨a, b, hab⟩ := List.length_eq_two.mp hc
  rw [boundary, edge, hab]
  rfl

theorem boundaries_eq (hp : Planar p) : boundaries p = .ok (edges p) := by
  rw [boundaries, mapM_eq_ok fun c hc => boundary_eq (hp c hc)]
  rfl

theorem lhs_eq {c : Constraint Rat} (hc : c.coefficients.length = 2) (x y : Rat) :
    c.lhs [x, y] = (edge c).a * x + (edge c).b * y := by
  obtain ⟨a, b, hab⟩ := List.length_eq_two.mp hc
  rw [Constraint.lhs, edge, hab, Scalar.dot_cons, Scalar.dot_cons]
  simp [Scalar.dot, Scalar.sum_eq]

end TableauSimplex.Plane
