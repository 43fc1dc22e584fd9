import TableauSimplex.Proofs.Plane.Region

/-!
# The extreme points and the vertices

Each boundary line has the whole region on one of its sides (`supports_of_mem_edges`). So a feasible
point on two boundary lines that cross is an extreme point, and there are no others
(`mem_extremePoints_iff_edges`). Without tolerances for lines and constraints the crossings are
therefore the extreme points, and the vertices are these up to the distance within which two count
as one (`feasibleVertices_extremePoints`).

* `Line.Supports`: a set lies on one side of a line.
-/

namespace TableauSimplex.Plane

variable {p : Problem Rat} {s : Settings Rat} {l m : Line Rat} {F : Set (Rat × Rat)}

/-! ## Lines beside a set -/

/-- The set lies on one side of the line. -/
def Line.Supports (l : Line Rat) (F : Set (Rat × Rat)) : Prop :=
  (∀ q ∈ F, l.a * q.1 + l.b * q.2 ≤ l.rhs) ∨ ∀ q ∈ F, l.rhs ≤ l.a * q.1 + l.b * q.2

/-- **A line beside a set that goes through a point between two of the set** goes through either of
them. -/
theorem Line.Supports.through {q r : Rat × Rat} {a b : Rat} (h : l.Supports F) (hq : q ∈ F)
    (hr : r ∈ F) (ha : 0 < a) (hb : 0 < b) (hab : a + b = 1)
    (ht : l.Through (a * q.1 + b * r.1) (a * q.2 + b * r.2)) : l.Through q.1 q.2 := by
  unfold Line.Through at ht ⊢
  have hsum : a * (l.a * q.1 + l.b * q.2 - l.rhs) + b * (l.a * r.1 + l.b * r.2 - l.rhs) = 0 := by
    linear_combination ht - l.rhs * hab
  have hzero : a * (l.a * q.1 + l.b * q.2 - l.rhs) = 0 := by
    rcases h with h | h
    · have h₁ := mul_nonpos_of_nonneg_of_nonpos ha.le (sub_nonpos.mpr (h q hq))
      have h₂ := mul_nonpos_of_nonneg_of_nonpos hb.le (sub_nonpos.mpr (h r hr))
      linarith
    · have h₁ := mul_nonneg ha.le (sub_nonneg.mpr (h q hq))
      have h₂ := mul_nonneg hb.le (sub_nonneg.mpr (h r hr))
      linarith
  exact sub_eq_zero.mp ((mul_eq_zero.mp hzero).resolve_left ha.ne')

/-- Two lines that cross have one point in common. -/
theorem Line.eq_of_through {x y x' y' : Rat} (hcross : l.cross m ≠ 0) (hl : l.Through x y)
    (hm : m.Through x y) (hl' : l.Through x' y') (hm' : m.Through x' y') : x = x' ∧ y = y' := by
  unfold Line.Through at hl hm hl' hm'
  constructor <;> apply mul_left_cancel₀ hcross <;> unfold Line.cross
  · linear_combination m.b * (hl - hl') - l.b * (hm - hm')
  · linear_combination l.a * (hm - hm') - m.a * (hl - hl')

/-- **The region lies on one side of each boundary line.** -/
theorem supports_of_mem_edges (hp : Planar p) (hl : l ∈ edges p) : l.Supports (feasibleSet p) := by
  rcases List.mem_append.mp hl with hl | hl
  · obtain ⟨c, hc, rfl⟩ := List.mem_map.mp hl
    have hside : ∀ q ∈ feasibleSet p, c.Holds [q.1, q.2] := fun q hq => hq.2.2 c hc
    simp only [Constraint.Holds, lhs_eq (hp c hc)] at hside
    cases hs : c.sign <;> simp only [hs] at hside
    · exact .inl hside
    · exact .inr hside
    · exact .inl fun q hq => (hside q hq).le
  · right
    intro q hq
    simp only [axes, List.mem_cons, List.not_mem_nil, or_false] at hl
    rcases hl with rfl | rfl
    · simpa using hq.1
    · simpa using hq.2.1

/-! ## Extreme points -/

/-- **A feasible point on two boundary lines that cross is an extreme point.** -/
theorem mem_extremePoints_of_edges {x y : Rat} (hp : Planar p) (hq : (x, y) ∈ feasibleSet p)
    (hl : l ∈ edges p) (hm : m ∈ edges p) (hcross : l.cross m ≠ 0) (hlq : l.Through x y)
    (hmq : m.Through x y) : (x, y) ∈ (feasibleSet p).extremePoints Rat := by
  refine mem_extremePoints_iff_left.mpr ⟨hq, ?_⟩
  rintro ⟨x₁, y₁⟩ h₁ ⟨x₂, y₂⟩ h₂ ⟨a, b, ha, hb, hab, hsum⟩
  simp only [Prod.smul_mk, smul_eq_mul, Prod.mk_add_mk, Prod.mk.injEq] at hsum
  obtain ⟨rfl, rfl⟩ := hsum
  have hl₁ := (supports_of_mem_edges hp hl).through h₁ h₂ ha hb hab hlq
  have hm₁ := (supports_of_mem_edges hp hm).through h₁ h₂ ha hb hab hmq
  exact Prod.ext_iff.mpr (Line.eq_of_through hcross hl₁ hm₁ hlq hmq)

/-- **The extreme points** are the feasible points on two boundary lines that cross. -/
theorem mem_extremePoints_iff_edges {x y : Rat} (hp : Planar p) :
    (x, y) ∈ (feasibleSet p).extremePoints Rat ↔ (x, y) ∈ feasibleSet p ∧
      ∃ l ∈ edges p, ∃ m ∈ edges p, l.cross m ≠ 0 ∧ l.Through x y ∧ m.Through x y := by
  constructor
  · intro hq
    exact ⟨extremePoints_subset hq, exists_edges_of_extreme hp hq⟩
  · rintro ⟨hq, l, hl, m, hm, hcross, hlq, hmq⟩
    exact mem_extremePoints_of_edges hp hq hl hm hcross hlq hmq

/-- **A crossing is an extreme point** when constraints are not relaxed. -/
theorem mem_extremePoints_of_mem_crossings {q : Point Rat} (hp : Planar p)
    (hfeas : s.feasibility = 0) (hq : q ∈ crossings p (edges p) s) :
    (q.x, q.y) ∈ (feasibleSet p).extremePoints Rat := by
  obtain ⟨⟨l, m, hpair, hinter⟩, hf⟩ := mem_crossings_iff.mp hq
  obtain ⟨hl, hm⟩ := mem_of_mem_pairs hpair
  obtain ⟨-, hcross, -, hlq, hmq⟩ := Line.intersect_eq_some_iff.mp hinter
  rw [hfeas] at hf
  exact (mem_extremePoints_iff_edges hp).mpr
    ⟨mem_feasibleSet_iff.mpr hf, l, hl, m, hm, hcross, hlq, hmq⟩

/-! ## Vertices -/

/-- **Without tolerances the vertices are the extreme points** of the region, up to the distance
within which two points count as one. Of two vertices so close only one is there. -/
theorem feasibleVertices_extremePoints (hp : Planar p) (hpar : s.parallel = 0)
    (hfeas : s.feasibility = 0) :
    ∃ vertices, feasibleVertices p s = .ok vertices ∧
      (∀ q ∈ vertices, (q.x, q.y) ∈ (feasibleSet p).extremePoints Rat) ∧
      (∀ q ∈ (feasibleSet p).extremePoints Rat, ∃ r ∈ vertices, (r.x, r.y) = q ∨
        (|q.1 - r.x| < s.duplicate ∧ |q.2 - r.y| < s.duplicate)) ∧
      vertices.Pairwise fun q r => s.duplicate ≤ |q.x - r.x| ∨ s.duplicate ≤ |q.y - r.y| := by
  have hvertices := feasibleVertices_eq (s := s) hp
  obtain ⟨hcrossings, hnear⟩ := feasibleVertices_spec hp hvertices
  refine ⟨_, hvertices, ?_, ?_, pairwise_feasibleVertices hp hvertices⟩
  · intro q hq
    exact mem_extremePoints_of_mem_crossings hp hfeas (hcrossings q hq)
  · rintro ⟨x, y⟩ hq
    obtain ⟨r, hr, heq | hclose⟩ := hnear _ (mem_crossings_of_mem_extremePoints hp hpar hfeas hq)
    · exact ⟨r, hr, .inl (by rw [heq])⟩
    · rw [Point.near_iff] at hclose
      exact ⟨r, hr, .inr hclose⟩

/-- Settings without tolerances for lines and constraints. -/
def sharp (duplicate : Rat) : Settings Rat := { parallel := 0, feasibility := 0, duplicate }

/-- A segment of the diagonal, with parallel and coinciding lines and one that is no line. -/
def diagonalSegment : Problem Rat where
  sense := .maximize
  names := [.text "x", .text "y"]
  objective := [1, 0]
  constraints := [⟨[1, 1], .atMost, 2⟩, ⟨[2, 2], .atMost, 4⟩, ⟨[-1, -1], .atMost, -1⟩,
    ⟨[0, 0], .atLeast, -3⟩, ⟨[1, -1], .equal, 0⟩]

/-- Within one unit the two ends count as one, and the end found first is the vertex. -/
theorem feasibleVertices_extremePoints_diagonalSegment :
    ∃ vertices, feasibleVertices diagonalSegment (sharp 1) = .ok vertices ∧
      vertices = [{ x := 1, y := 1 }] ∧
      (1, 1) ∈ (feasibleSet diagonalSegment).extremePoints Rat ∧
      ∀ q ∈ (feasibleSet diagonalSegment).extremePoints Rat, q = (1, 1) ∨
        (|q.1 - 1| < 1 ∧ |q.2 - 1| < 1) := by
  obtain ⟨vertices, h, hextreme, hcover, -⟩ := feasibleVertices_extremePoints
    (p := diagonalSegment) (s := sharp 1) (by decide) rfl rfl
  have hvertices : vertices = [{ x := 1, y := 1 }] := by
    rw [feasibleVertices_eq (by decide)] at h
    cases h
    decide +kernel
  subst hvertices
  refine ⟨_, h, rfl, hextreme _ List.mem_cons_self, fun q hq => ?_⟩
  obtain ⟨r, hr, hq⟩ := hcover q hq
  obtain rfl := List.mem_singleton.mp hr
  exact hq.imp_left Eq.symm

end TableauSimplex.Plane
