import TableauSimplex.Proofs.Plane.Line
import TableauSimplex.Proofs.Problem
import TableauSimplex.Proofs.Sorting

/-!
# What the vertices are

The corners are the feasible crossings of boundary lines, less those near one found before
(`corners_eq`). So each corner is a feasible crossing, each feasible crossing is a corner or has one
near it, and no two corners are near each other. Sorting by angle keeps the points
(`aroundCentroid_perm`), so that the same holds of the vertices (`feasibleVertices_spec`,
`pairwise_feasibleVertices`).

* `distinct`: points without those near an earlier one that stays.
* `crossings`: the feasible points among the intersections of lines, with repetitions.
* `centroid`, `Point.seenFrom`: the mean of points, and the direction in which a point is seen from
  it.
-/

namespace TableauSimplex.Plane

/-! ## Pairs -/

section

variable {β : Type} {xs : List β} {x y : β}

theorem mem_of_mem_pairs (h : (x, y) ∈ pairs xs) : x ∈ xs ∧ y ∈ xs := by
  induction xs with
  | nil => cases h
  | cons z rest ih =>
    rcases List.mem_append.mp h with h | h
    · obtain ⟨w, hw, hxy⟩ := List.mem_map.mp h
      cases hxy
      exact ⟨List.mem_cons_self, List.mem_cons_of_mem _ hw⟩
    · exact ⟨List.mem_cons_of_mem _ (ih h).1, List.mem_cons_of_mem _ (ih h).2⟩

/-- Two elements are a pair in the order in which they come. -/
theorem mem_pairs_or_swap (hx : x ∈ xs) (hy : y ∈ xs) (hne : x ≠ y) :
    (x, y) ∈ pairs xs ∨ (y, x) ∈ pairs xs := by
  induction xs with
  | nil => cases hx
  | cons z rest ih =>
    simp only [pairs, List.mem_append, List.mem_map, Prod.mk.injEq]
    rcases List.mem_cons.mp hx with rfl | hx'
    · exact .inl (.inl ⟨y, (List.mem_cons.mp hy).resolve_left hne.symm, rfl, rfl⟩)
    · rcases List.mem_cons.mp hy with rfl | hy'
      · exact .inr (.inl ⟨x, hx', rfl, rfl⟩)
      · exact (ih hx' hy').imp .inr .inr

end

/-! ## Points that are not near each other -/

variable {tol : Rat} {points : List (Point Rat)} {q r : Point Rat}

namespace Point

/-- Two points differ by a tolerance or more in one of the coordinates. -/
def Apart (tol : Rat) (q r : Point Rat) : Prop := tol ≤ |q.x - r.x| ∨ tol ≤ |q.y - r.y|

theorem near_iff : q.near r tol = true ↔ |q.x - r.x| < tol ∧ |q.y - r.y| < tol := by
  rw [near, Bool.and_eq_true, decide_eq_true_iff, decide_eq_true_iff, Scalar.abs_eq, Scalar.abs_eq]

theorem not_near_iff : ¬q.near r tol = true ↔ q.Apart tol r := by
  rw [near_iff, not_and_or, not_lt, not_lt]
  exact Iff.rfl

theorem Apart.symm (h : q.Apart tol r) : r.Apart tol q := by
  unfold Apart at h ⊢
  rwa [abs_sub_comm r.x, abs_sub_comm r.y]

theorem Apart.ne (h : q.Apart tol r) (htol : 0 < tol) : (q.x, q.y) ≠ (r.x, r.y) := by
  intro heq
  rw [Prod.mk.injEq] at heq
  rw [Apart, heq.1, heq.2, sub_self, sub_self, abs_zero, or_self] at h
  exact htol.not_ge h

end Point

/-- A list of points with one more, unless that is near one of them. -/
def addDistinct (tol : Rat) (found : List (Point Rat)) (q : Point Rat) : List (Point Rat) :=
  if found.any (fun r => q.near r tol) then found else found ++ [q]

/-- The points of a list without those near an earlier one that stays. -/
def distinct (tol : Rat) (points : List (Point Rat)) : List (Point Rat) :=
  points.foldl (addDistinct tol) []

theorem distinct_concat : distinct tol (points ++ [q]) = addDistinct tol (distinct tol points) q :=
  List.foldl_concat ..

theorem mem_of_mem_distinct (h : q ∈ distinct tol points) : q ∈ points := by
  induction points using List.reverseRecOn with
  | nil => cases h
  | append_singleton points r ih =>
    rw [distinct_concat, addDistinct] at h
    split at h
    · exact List.mem_append_left _ (ih h)
    · exact List.mem_append.mpr ((List.mem_append.mp h).imp_left ih)

/-- **A point that is left out is near one that stays.** -/
theorem exists_mem_distinct (h : q ∈ points) :
    ∃ r ∈ distinct tol points, r = q ∨ q.near r tol = true := by
  induction points using List.reverseRecOn with
  | nil => cases h
  | append_singleton points last ih =>
    rw [distinct_concat, addDistinct]
    rcases List.mem_append.mp h with h | h
    · obtain ⟨r, hr, hnear⟩ := ih h
      split
      · exact ⟨r, hr, hnear⟩
      · exact ⟨r, List.mem_append_left _ hr, hnear⟩
    · obtain rfl := List.mem_singleton.mp h
      split
      · rename_i hany
        obtain ⟨r, hr, hnear⟩ := List.any_eq_true.mp hany
        exact ⟨r, hr, .inr hnear⟩
      · exact ⟨q, List.mem_append_right _ List.mem_cons_self, .inl rfl⟩

/-- **The points that stay are apart from each other.** -/
theorem pairwise_distinct : (distinct tol points).Pairwise fun q r => q.Apart tol r := by
  induction points using List.reverseRecOn with
  | nil => exact List.Pairwise.nil
  | append_singleton points last ih =>
    rw [distinct_concat, addDistinct]
    split
    · exact ih
    · rename_i hany
      refine List.pairwise_append.mpr ⟨ih, List.pairwise_singleton _ _, fun q hq r hr => ?_⟩
      obtain rfl := List.mem_singleton.mp hr
      -- The new point is near none of those that stay.
      have hnear : ¬r.near q tol = true := fun h => hany (List.any_eq_true.mpr ⟨q, hq, h⟩)
      exact (Point.not_near_iff.mp hnear).symm

/-! ## Crossings -/

variable {p : Problem Rat} {s : Settings Rat} {lines : List (Line Rat)}
  {vertices : List (Point Rat)}

/-- The feasible points among the intersections of lines, with repetitions. -/
def crossings (p : Problem Rat) (lines : List (Line Rat)) (s : Settings Rat) : List (Point Rat) :=
  ((pairs lines).filterMap fun (l, m) => l.intersect m s.parallel).filter
    fun q => p.isFeasible [q.x, q.y] s.feasibility

/-- **The corners** are the feasible crossings without those near an earlier one. -/
theorem corners_eq : corners p lines s = distinct s.duplicate (crossings p lines s) := by
  rw [corners, distinct, crossings, List.foldl_filter, List.foldl_filterMap]
  congr 1
  funext found ⟨l, m⟩
  simp only
  cases l.intersect m s.parallel with
  | none => rfl
  | some q =>
    simp only [addDistinct]
    cases p.isFeasible [q.x, q.y] s.feasibility with
    | false => rfl
    | true => cases found.any fun r => q.near r s.duplicate <;> rfl

theorem pairwise_corners : (corners p lines s).Pairwise fun q r => q.Apart s.duplicate r := by
  rw [corners_eq]
  exact pairwise_distinct

theorem mem_crossings_of_mem_corners (h : q ∈ corners p lines s) : q ∈ crossings p lines s := by
  rw [corners_eq] at h
  exact mem_of_mem_distinct h

theorem mem_crossings_iff : q ∈ crossings p lines s ↔ (∃ l m, (l, m) ∈ pairs lines ∧
    l.intersect m s.parallel = some q) ∧ p.isFeasible [q.x, q.y] s.feasibility = true := by
  simp [crossings]

/-- **Where two lines cross in a feasible point,** that is a crossing, whichever comes first. -/
theorem mem_crossings_of_through {l m : Line Rat} {x y : Rat} (hl : l ∈ lines) (hm : m ∈ lines)
    (hpar : s.parallel = 0) (hcross : l.cross m ≠ 0) (hlq : l.Through x y) (hmq : m.Through x y)
    (hf : p.isFeasible [x, y] s.feasibility = true) : ⟨x, y, none⟩ ∈ crossings p lines s := by
  have hne : l ≠ m := fun h => hcross (h ▸ l.cross_self)
  have hsize : ∀ k k' : Line Rat, s.parallel ≤ |k.cross k'| := fun k k' =>
    hpar.le.trans (abs_nonneg _)
  rw [mem_crossings_iff]
  rcases mem_pairs_or_swap hl hm hne with hpair | hpair
  · exact ⟨⟨l, m, hpair, Line.intersect_eq_some_iff.mpr ⟨hsize _ _, hcross, rfl, hlq, hmq⟩⟩, hf⟩
  · have hcross' : m.cross l ≠ 0 := by rwa [l.cross_swap m, neg_ne_zero]
    exact ⟨⟨m, l, hpair, Line.intersect_eq_some_iff.mpr ⟨hsize _ _, hcross', rfl, hmq, hlq⟩⟩, hf⟩

/-! ## Vertices -/

/-- The mean of points. -/
def centroid (points : List (Point Rat)) : Rat × Rat :=
  (mean (points.map (·.x)), mean (points.map (·.y)))

/-- The direction in which a point is seen. -/
def Point.seenFrom (q : Point Rat) (c : Rat × Rat) : Rat × Rat := (q.x - c.1, q.y - c.2)

theorem aroundCentroid_eq (points : List (Point Rat)) :
    aroundCentroid points = Sorting.insertionSort (fun q r =>
      turnsBefore (q.seenFrom (centroid points)) (r.seenFrom (centroid points))) points := by
  have hangle : (points.all fun q => Scalar.hasAngle
      (q.x - mean (points.map (·.x)), q.y - mean (points.map (·.y)))) = true :=
    List.all_eq_true.mpr fun _ _ => rfl
  simp only [aroundCentroid, hangle, if_true]
  rfl

/-- **Points in the order of their angles** are the same points. -/
theorem aroundCentroid_perm (points : List (Point Rat)) : (aroundCentroid points).Perm points := by
  rw [aroundCentroid_eq]
  exact Sorting.insertionSort_perm points

theorem feasibleVertices_eq (hp : Planar p) :
    feasibleVertices p s = .ok (aroundCentroid (corners p (edges p) s)) := by
  rw [feasibleVertices, boundaries_eq hp]
  rfl

/-- **The vertices of a region** are feasible crossings of boundary lines, and each feasible
crossing is a vertex or has one near it. -/
theorem feasibleVertices_spec (hp : Planar p) (h : feasibleVertices p s = .ok vertices) :
    (∀ q ∈ vertices, q ∈ crossings p (edges p) s) ∧
      ∀ q ∈ crossings p (edges p) s, ∃ r ∈ vertices, r = q ∨ q.near r s.duplicate = true := by
  rw [feasibleVertices_eq hp] at h
  cases h
  have hmem : ∀ r, r ∈ aroundCentroid (corners p (edges p) s) ↔
      r ∈ distinct s.duplicate (crossings p (edges p) s) := fun r => by
    rw [(aroundCentroid_perm _).mem_iff, corners_eq]
  refine ⟨fun q hq => mem_of_mem_distinct ((hmem q).mp hq), fun q hq => ?_⟩
  obtain ⟨r, hr, hnear⟩ := exists_mem_distinct hq
  exact ⟨r, (hmem r).mpr hr, hnear⟩

/-- **Vertices are apart from each other.** -/
theorem pairwise_feasibleVertices (hp : Planar p) (h : feasibleVertices p s = .ok vertices) :
    vertices.Pairwise fun q r => q.Apart s.duplicate r := by
  rw [feasibleVertices_eq hp] at h
  cases h
  exact ((aroundCentroid_perm _).pairwise_iff Point.Apart.symm).mpr pairwise_corners

end TableauSimplex.Plane
