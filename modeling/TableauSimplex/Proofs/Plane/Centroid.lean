import Mathlib.Analysis.Convex.Extreme
import TableauSimplex.Proofs.Plane.Angle
import TableauSimplex.Proofs.Plane.Corners

/-!
# The centroid of points

The centroid is between any one of the points and the centroid of the others (`centroid_cons_mem`).
So the centroid of points of a convex set is in the set, and it is an extreme point only if it is
all of the points (`centroid_mem`, `eq_centroid_of_mem_extremePoints`). Seen from the centroid, points
balance: what lies to the left of a direction weighs as much as what lies to the right
(`sum_cross_seenFrom`). The points around it are sorted by their bearings from it
(`aroundCentroid_pairwise`).

* `Point.bearing`: the angle under which a point is seen.
-/

namespace TableauSimplex.Plane

variable {points rest : List (Point Rat)} {q : Point Rat} {F : Set (Rat × Rat)}

theorem mean_eq (xs : List Rat) : mean xs = xs.sum / xs.length := by
  rw [mean, Scalar.sum_eq]
  rfl

theorem centroid_perm {points' : List (Point Rat)} (h : points.Perm points') :
    centroid points = centroid points' := by
  simp only [centroid, mean_eq, List.length_map, h.length_eq, (h.map Point.x).sum_eq,
    (h.map Point.y).sum_eq]

theorem centroid_singleton (q : Point Rat) : centroid [q] = (q.x, q.y) := by
  simp [centroid, mean_eq]

theorem length_ne_zero (hne : points ≠ []) : (points.length : Rat) ≠ 0 :=
  Nat.cast_ne_zero.mpr fun h => hne (List.length_eq_zero_iff.mp h)

/-- **The centroid is between one point and the centroid of the others.** -/
theorem centroid_cons_mem (hne : rest ≠ []) :
    centroid (q :: rest) ∈ openSegment Rat (q.x, q.y) (centroid rest) := by
  have hlen := length_ne_zero hne
  have hpos : 0 < (rest.length : Rat) := (Nat.cast_nonneg _).lt_of_ne' hlen
  refine ⟨1 / (rest.length + 1), rest.length / (rest.length + 1), ?_, ?_, ?_, ?_⟩
  · positivity
  · positivity
  · field_simp
    ring
  · ext <;>
      simp only [centroid, mean_eq, List.map_cons, List.sum_cons, List.length_cons,
        List.length_map, Nat.cast_add, Nat.cast_one, Prod.fst_add, Prod.snd_add, Prod.smul_mk,
        smul_eq_mul] <;>
      field_simp

/-- **The centroid of points of a convex set is in the set.** -/
theorem centroid_mem (hF : Convex Rat F) (h : ∀ q ∈ points, (q.x, q.y) ∈ F) (hne : points ≠ []) :
    centroid points ∈ F := by
  induction points with
  | nil => exact absurd rfl hne
  | cons q rest ih =>
    have hq := h q List.mem_cons_self
    by_cases hrest : rest = []
    · rw [hrest, centroid_singleton]
      exact hq
    · have hmem := ih (fun r hr => h r (List.mem_cons_of_mem _ hr)) hrest
      exact hF.openSegment_subset hq hmem (centroid_cons_mem hrest)

/-- **A centroid that is an extreme point** is all of the points. -/
theorem eq_centroid_of_mem_extremePoints (hF : Convex Rat F) (h : ∀ q ∈ points, (q.x, q.y) ∈ F)
    (hext : centroid points ∈ F.extremePoints Rat) (hq : q ∈ points) :
    (q.x, q.y) = centroid points := by
  have hperm := List.perm_cons_erase hq
  rw [centroid_perm hperm] at hext ⊢
  by_cases hrest : points.erase q = []
  · rw [hrest, centroid_singleton]
  · have hmem := centroid_mem hF (fun r hr => h r (List.mem_of_mem_erase hr)) hrest
    exact (mem_extremePoints_iff_left.mp hext).2 _ (h q hq) _ hmem (centroid_cons_mem hrest)

/-! ## Bearings -/

/-- The angle under which a point is seen. -/
noncomputable def Point.bearing (q : Point Rat) (c : Rat × Rat) : ℝ := angle (q.seenFrom c)

theorem Point.seenFrom_congr {r : Point Rat} {c : Rat × Rat} (h : (q.x, q.y) = (r.x, r.y)) :
    q.seenFrom c = r.seenFrom c := by
  rw [Prod.mk.injEq] at h
  rw [seenFrom, seenFrom, h.1, h.2]

theorem Point.neg_pi_lt_bearing (q : Point Rat) (c : Rat × Rat) : -Real.pi < q.bearing c :=
  neg_pi_lt_angle _

theorem Point.bearing_le_pi (q : Point Rat) (c : Rat × Rat) : q.bearing c ≤ Real.pi :=
  angle_le_pi _

theorem sum_cross (u c : Rat × Rat) (points : List (Point Rat)) :
    (points.map fun q => cross u (q.seenFrom c)).sum =
      cross u ((points.map (·.x)).sum - points.length * c.1,
        (points.map (·.y)).sum - points.length * c.2) := by
  induction points with
  | nil => simp [cross]
  | cons q rest ih =>
    rw [List.map_cons, List.sum_cons, ih]
    simp only [List.map_cons, List.sum_cons, List.length_cons, Nat.cast_add, Nat.cast_one, cross,
      Point.seenFrom]
    ring

/-- **Seen from their centroid points balance,** whichever direction parts them. -/
theorem sum_cross_seenFrom (hne : points ≠ []) (u : Rat × Rat) :
    (points.map fun q => cross u (q.seenFrom (centroid points))).sum = 0 := by
  rw [sum_cross]
  simp only [centroid, mean_eq, List.length_map, mul_div_cancel₀ _ (length_ne_zero hne), sub_self,
    cross, mul_zero]

/-- **Points around their centroid are sorted by their bearings.** -/
theorem aroundCentroid_pairwise (points : List (Point Rat)) :
    (aroundCentroid points).Pairwise fun q r =>
      q.bearing (centroid points) ≤ r.bearing (centroid points) := by
  have hbefore : ∀ q r : Point Rat, turnsBefore (q.seenFrom (centroid points))
      (r.seenFrom (centroid points)) = true ↔
        q.bearing (centroid points) < r.bearing (centroid points) := fun q r => turnsBefore_iff
  rw [aroundCentroid_eq]
  exact Sorting.insertionSort_pairwise hbefore points

end TableauSimplex.Plane
