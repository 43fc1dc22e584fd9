import TableauSimplex.Proofs.Plane.Corners

/-!
# Constraints multiplied by a number

A constraint and its positive multiples admit the same points, and their boundary lines meet the
other ones in the same points. But tolerances are compared with quantities that are multiplied too:
with the determinants of the boundary line (`Line.intersect_scale`) and with the amount by which a
point misses the constraint (`Constraint.violation_scale`). As long as none of these comparisons
comes out differently (`ScalesAlike`), the region has the same vertices; without tolerances none
ever does (`scalesAlike_of_exact`).

* `Problem.scaleConstraint`: a program with one constraint multiplied.
* `feasibleVertices_scaleConstraint`: when its vertices are the same.
* `not_scales_by_default`: the default tolerances can tell multiples of a constraint apart.
-/

namespace TableauSimplex

/-! ## Multiples of a constraint -/

private theorem getD_map_mul (k : Rat) (xs : List Rat) (j : Nat) :
    (xs.map (k * ·)).getD j 0 = k * xs.getD j 0 := by
  have h := List.getD_map xs 0 (k * ·) (n := j)
  rwa [mul_zero] at h

namespace Constraint

variable {c : Constraint Rat} {x : List Rat} {k tol : Rat}

/-- The constraint with both sides multiplied. -/
def scale (k : Rat) (c : Constraint Rat) : Constraint Rat :=
  ⟨c.coefficients.map (k * ·), c.sign, k * c.rhs⟩

/-- By how much a point misses the constraint. It is not positive where the constraint holds. -/
def violation (c : Constraint Rat) (x : List Rat) : Rat :=
  match c.sign with
  | .atMost => c.lhs x - c.rhs
  | .atLeast => c.rhs - c.lhs x
  | .equal => |c.lhs x - c.rhs|

theorem isSatisfied_iff_violation : c.isSatisfied x tol = true ↔ c.violation x ≤ tol := by
  rw [isSatisfied_iff, violation]
  cases c.sign <;> simp only
  · rw [sub_le_iff_le_add']
  · rw [sub_le_comm]
  · rw [abs_le]

theorem lhs_scale : (c.scale k).lhs x = k * c.lhs x := by
  rw [lhs, lhs, scale, Scalar.dot_eq, Scalar.dot_eq, List.length_map, Finset.mul_sum]
  refine Finset.sum_congr rfl fun j _ => ?_
  rw [getD_map_mul, mul_assoc]

/-- **A violation is multiplied with the constraint.** -/
theorem violation_scale (hk : 0 ≤ k) : (c.scale k).violation x = k * c.violation x := by
  have hrhs : (c.scale k).rhs = k * c.rhs := rfl
  have hsign : (c.scale k).sign = c.sign := rfl
  rw [violation, violation, lhs_scale, hrhs, hsign]
  cases c.sign <;> simp only
  · ring
  · ring
  · rw [← mul_sub, abs_mul, abs_of_nonneg hk]

end Constraint

namespace Problem

variable {p : Problem Rat} {i : Nat} {k tol : Rat} {x : List Rat}

/-- The program with one constraint multiplied. -/
def scaleConstraint (p : Problem Rat) (i : Nat) (k : Rat) : Problem Rat :=
  { p with constraints := p.constraints.set i ((p.constraintAt i).scale k) }

/-- The program without one of its constraints. -/
def without (p : Problem Rat) (i : Nat) : Problem Rat :=
  { p with constraints := p.constraints.eraseIdx i }

theorem isFeasible_without (hi : i < p.constraints.length) : p.isFeasible x tol =
    ((p.constraintAt i).isSatisfied x tol && (p.without i).isFeasible x tol) := by
  have hall := (List.getElem_cons_eraseIdx_perm hi).all_eq (f := fun c => c.isSatisfied x tol)
  rw [List.all_cons, ← constraintAt_of_lt hi] at hall
  rw [isFeasible, isFeasible, ← hall, without]
  exact Bool.and_left_comm ..

theorem constraintAt_scaleConstraint (hi : i < p.constraints.length) :
    (p.scaleConstraint i k).constraintAt i = (p.constraintAt i).scale k := by
  rw [constraintAt_of_lt (by simpa [scaleConstraint] using hi)]
  exact List.getElem_set_self _

theorem without_scaleConstraint : (p.scaleConstraint i k).without i = p.without i := by
  rw [without, without, scaleConstraint, List.eraseIdx_set_eq]

/-- **A point is as feasible as before** when, the other constraints satisfied, its violation is on
the same side of the tolerance as before. -/
theorem isFeasible_scaleConstraint (hi : i < p.constraints.length) (hk : 0 < k)
    (h : (p.without i).isFeasible x tol = true →
      ((p.constraintAt i).violation x ≤ tol ↔ k * (p.constraintAt i).violation x ≤ tol)) :
    (p.scaleConstraint i k).isFeasible x tol = p.isFeasible x tol := by
  have hi' : i < (p.scaleConstraint i k).constraints.length := by simpa [scaleConstraint] using hi
  rw [isFeasible_without hi, isFeasible_without hi', constraintAt_scaleConstraint hi,
    without_scaleConstraint]
  cases hrest : (p.without i).isFeasible x tol with
  | false => rw [Bool.and_false, Bool.and_false]
  | true =>
    rw [Bool.and_true, Bool.and_true, Bool.eq_iff_iff, Constraint.isSatisfied_iff_violation,
      Constraint.isSatisfied_iff_violation, Constraint.violation_scale hk.le]
    exact (h hrest).symm

end Problem

namespace Plane

/-! ## Multiples of a line -/

variable {l m : Line Rat} {p : Problem Rat} {s : Settings Rat} {i : Nat} {k tol : Rat}

/-- The line with both sides of its equation multiplied. -/
def Line.scale (k : Rat) (l : Line Rat) : Line Rat := ⟨k * l.a, k * l.b, k * l.rhs⟩

theorem Line.cross_scale : (l.scale k).cross m = k * l.cross m := by
  unfold cross scale
  ring

theorem Line.through_scale {x y : Rat} (hk : k ≠ 0) :
    (l.scale k).Through x y ↔ l.Through x y := by
  unfold Through scale
  rw [mul_assoc, mul_assoc, ← mul_add, mul_right_inj' hk]

theorem Line.intersect_comm : m.intersect l tol = l.intersect m tol := by
  refine Option.ext fun q => ?_
  rw [intersect_eq_some_iff, intersect_eq_some_iff, l.cross_swap m, abs_neg, neg_ne_zero,
    and_comm (a := m.Through _ _)]

/-- **A multiple of a line meets another line in the same point,** if the determinant is on the same
side of the tolerance as before. -/
theorem Line.intersect_scale (hk : 0 < k)
    (h : tol ≤ |l.cross m| ↔ tol ≤ k * |l.cross m|) :
    (l.scale k).intersect m tol = l.intersect m tol := by
  refine Option.ext fun q => ?_
  rw [intersect_eq_some_iff, intersect_eq_some_iff, cross_scale, abs_mul, abs_of_pos hk, ← h,
    mul_ne_zero_iff, and_iff_right hk.ne', through_scale hk.ne']

theorem edge_scale (c : Constraint Rat) : edge (c.scale k) = (edge c).scale k := by
  rw [edge, Constraint.scale, getD_map_mul, getD_map_mul]
  rfl

theorem edges_scaleConstraint (hi : i < p.constraints.length) :
    edges (p.scaleConstraint i k) = (edges p).set i ((edge (p.constraintAt i)).scale k) := by
  rw [edges, edges, Problem.scaleConstraint, List.map_set, edge_scale,
    List.set_append_left _ _ (by simpa using hi)]

theorem getElem_edges (hi : i < p.constraints.length) (hi' : i < (edges p).length) :
    (edges p)[i] = edge (p.constraintAt i) := by
  rw [Problem.constraintAt_of_lt hi]
  simp only [edges]
  rw [List.getElem_append_left (by simpa using hi), List.getElem_map]

theorem Planar.scaleConstraint (hp : Planar p) : Planar (p.scaleConstraint i k) := by
  intro c hc
  rcases Nat.lt_or_ge i p.constraints.length with hi | hi
  · rcases List.mem_or_eq_of_mem_set hc with hc | rfl
    · exact hp c hc
    · rw [Problem.constraintAt_of_lt hi]
      exact (List.length_map _).trans (hp _ (List.getElem_mem hi))
  · exact hp c (List.set_eq_of_length_le hi ▸ hc)

/-! ## Pairs with one element replaced -/

section

variable {β γ : Type} {y : β}

/-- An element replaced by one with the same image. -/
theorem map_set_of_eq {f : β → γ} {xs : List β} (hi : i < xs.length) (h : f y = f xs[i]) :
    (xs.set i y).map f = xs.map f := by
  have hi' : i < (xs.map f).length := by rwa [List.length_map]
  have hself : (xs.map f).set i (xs.map f)[i] = xs.map f := List.set_getElem_self hi'
  rw [List.map_set, h, ← List.getElem_map f (h := hi'), hself]

/-- **Pairs with one element replaced** by one that goes with all others alike. -/
theorem filterMap_pairs_set {f : β × β → Option γ} {xs : List β} (hi : i < xs.length)
    (h : ∀ z ∈ xs, f (y, z) = f (xs[i], z) ∧ f (z, y) = f (z, xs[i])) :
    (pairs (xs.set i y)).filterMap f = (pairs xs).filterMap f := by
  induction xs generalizing i with
  | nil => cases hi
  | cons x rest ih =>
    cases i with
    | zero =>
      -- The pairs with the first element are replaced, and the others are the same.
      have hfirst : rest.filterMap (f ∘ (y, ·)) = rest.filterMap (f ∘ (x, ·)) :=
        List.filterMap_congr fun z hz => (h z (List.mem_cons_of_mem _ hz)).1
      simp only [List.set_cons_zero, pairs, List.filterMap_append, List.filterMap_map]
      rw [hfirst]
    | succ i =>
      have hi' : i < rest.length := Nat.lt_of_succ_lt_succ hi
      have hx : (rest.set i y).map (fun z => f (x, z)) = rest.map fun z => f (x, z) :=
        map_set_of_eq hi' (h x List.mem_cons_self).2
      have hrest := ih hi' fun z hz => h z (List.mem_cons_of_mem _ hz)
      have hid : ∀ zs : List β, (zs.map (x, ·)).filterMap f =
          (zs.map fun z => f (x, z)).filterMap id := fun zs => by
        rw [List.filterMap_map, List.filterMap_map]
        rfl
      simp only [List.set_cons_succ, pairs, List.filterMap_append]
      rw [hid, hid, hx, hrest]

end

/-! ## Vertices -/

/-- No comparison with a tolerance comes out differently when constraint number `i` is multiplied by
`k`: neither that of the determinants of its boundary line with the others, nor that of its
violation in the points where boundary lines meet and the other constraints are satisfied. -/
structure ScalesAlike (p : Problem Rat) (s : Settings Rat) (i : Nat) (k : Rat) : Prop where
  determinants : ∀ m ∈ edges p, s.parallel ≤ |(edge (p.constraintAt i)).cross m| ↔
    s.parallel ≤ k * |(edge (p.constraintAt i)).cross m|
  violations : ∀ l ∈ edges p, ∀ m ∈ edges p, ∀ q ∈ l.intersect m s.parallel,
    (p.without i).isFeasible [q.x, q.y] s.feasibility = true →
      ((p.constraintAt i).violation [q.x, q.y] ≤ s.feasibility ↔
        k * (p.constraintAt i).violation [q.x, q.y] ≤ s.feasibility)

instance : Decidable (ScalesAlike p s i k) :=
  decidable_of_iff (_ ∧ _) ⟨fun h => ⟨h.1, h.2⟩, fun h => ⟨h.determinants, h.violations⟩⟩

/-- **Without tolerances no comparison comes out differently.** -/
theorem scalesAlike_of_exact (hpar : s.parallel = 0) (hfeas : s.feasibility = 0) (hk : 0 < k) :
    ScalesAlike p s i k where
  determinants m _ := by
    rw [hpar, mul_nonneg_iff_of_pos_left hk]
  violations l _ m _ q _ _ := by
    rw [hfeas, ← mul_le_mul_iff_right₀ hk, mul_zero]

section

variable (hi : i < p.constraints.length) (hk : 0 < k) (h : ScalesAlike p s i k)

include hi hk h

/-- **The feasible crossings are the same.** -/
theorem crossings_scaleConstraint :
    crossings (p.scaleConstraint i k) (edges (p.scaleConstraint i k)) s =
      crossings p (edges p) s := by
  have hi' : i < (edges p).length := by
    rw [edges, List.length_append, List.length_map]
    exact hi.trans_le (Nat.le_add_right _ _)
  have hsame : ∀ m ∈ edges p, ((edge (p.constraintAt i)).scale k).intersect m s.parallel =
      (edge (p.constraintAt i)).intersect m s.parallel := fun m hm =>
    Line.intersect_scale hk (h.determinants m hm)
  have hsame' : ∀ m ∈ edges p, m.intersect ((edge (p.constraintAt i)).scale k) s.parallel =
      m.intersect (edge (p.constraintAt i)) s.parallel := fun m hm =>
    Line.intersect_comm.trans ((hsame m hm).trans Line.intersect_comm)
  rw [← getElem_edges hi hi'] at hsame hsame'
  rw [crossings, crossings, edges_scaleConstraint hi, ← getElem_edges hi hi',
    filterMap_pairs_set hi' fun m hm => ⟨hsame m hm, hsame' m hm⟩]
  refine List.filter_congr fun q hq => Problem.isFeasible_scaleConstraint hi hk ?_
  obtain ⟨⟨l, m⟩, hlm, hq⟩ := List.mem_filterMap.mp hq
  obtain ⟨hl, hm⟩ := mem_of_mem_pairs hlm
  exact h.violations l hl m hm q hq

theorem feasibleVertices_eq_of_scalesAlike (hp : Planar p) :
    feasibleVertices (p.scaleConstraint i k) s = feasibleVertices p s := by
  rw [feasibleVertices_eq hp, feasibleVertices_eq hp.scaleConstraint, corners_eq, corners_eq,
    crossings_scaleConstraint hi hk h]

end

/-- **Multiplying a constraint by a positive number keeps the list of vertices** when no comparison
with a tolerance comes out differently, and always when lines and constraints have no tolerances. -/
theorem feasibleVertices_scaleConstraint (hp : Planar p) (hi : i < p.constraints.length)
    (hk : 0 < k) :
    ∃ vertices, feasibleVertices p s = .ok vertices ∧
      (ScalesAlike p s i k → feasibleVertices (p.scaleConstraint i k) s = .ok vertices) ∧
      (s.parallel = 0 → s.feasibility = 0 →
        feasibleVertices (p.scaleConstraint i k) s = .ok vertices) := by
  have hvertices := feasibleVertices_eq (s := s) hp
  refine ⟨_, hvertices, fun h => ?_, fun hpar hfeas => ?_⟩
  · rw [feasibleVertices_eq_of_scalesAlike hi hk h hp, hvertices]
  · rw [feasibleVertices_eq_of_scalesAlike hi hk (scalesAlike_of_exact hpar hfeas hk) hp, hvertices]

/-- The triangle between the axes and the line `x + y = 1`. -/
def unitTriangle : Problem Rat where
  sense := .maximize
  names := [.text "x", .text "y"]
  objective := [1, 1]
  constraints := [⟨[1, 1], .atMost, 1⟩]

/-- Three times the constraint, with the default tolerances, bounds the same triangle. -/
theorem feasibleVertices_scaleConstraint_unitTriangle :
    Planar unitTriangle ∧ 0 < unitTriangle.constraints.length ∧ (0 : Rat) < 3 ∧
      ScalesAlike unitTriangle {} 0 3 ∧
      feasibleVertices (unitTriangle.scaleConstraint 0 3) {} =
        feasibleVertices unitTriangle {} := by
  have hp : Planar unitTriangle := by decide
  have hi : 0 < unitTriangle.constraints.length := by decide
  have hk : (0 : Rat) < 3 := by norm_num
  have halike : ScalesAlike unitTriangle {} 0 3 := by decide +kernel
  obtain ⟨vertices, h, hscaled, -⟩ := feasibleVertices_scaleConstraint (s := {}) hp hi hk
  exact ⟨hp, hi, hk, halike, (hscaled halike).trans h.symm⟩

/-- **The default tolerances can tell multiples of a constraint apart.** A small multiple of
`x + y ≤ 1` has a line that counts as parallel to both axes, and only the origin is left. -/
theorem not_scales_by_default : ¬∀ (p : Problem Rat) (i : Nat) (k : Rat), Planar p →
    i < p.constraints.length → 0 < k →
      feasibleVertices (p.scaleConstraint i k) {} = feasibleVertices p {} := by
  intro h
  have hp : Planar unitTriangle := by decide
  have hsame := h unitTriangle 0 1e-11 hp (by decide) (by norm_num)
  rw [feasibleVertices_eq hp, feasibleVertices_eq hp.scaleConstraint] at hsame
  have hlength := congrArg List.length (Except.ok.inj hsame)
  revert hlength
  decide +kernel

end Plane

end TableauSimplex
