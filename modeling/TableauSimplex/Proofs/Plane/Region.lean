import TableauSimplex.Proofs.Plane.Corners

/-!
# The feasible region in the plane

Every extreme point of the feasible region lies on two boundary lines that cross
(`exists_edges_of_extreme`): otherwise the lines through it have a common direction, the other lines
are some way off, and a short step in that direction and one back stay inside the region. So without
tolerances the crossings include all extreme points (`mem_crossings_of_extreme`).

* `feasibleSet`: the points of the quadrant that satisfy all constraints.
* `region`: the feasible points of a program with two variables. They are the same points
  (`region_eq_feasibleSet`).
* `Line.StepWithin`: a step that no boundary line is close enough to stop.
-/

namespace TableauSimplex.Plane

/-- The points with nonnegative coordinates that satisfy all constraints. -/
def feasibleSet (p : Problem Rat) : Set (Rat × Rat) :=
  {q | 0 ≤ q.1 ∧ 0 ≤ q.2 ∧ ∀ c ∈ p.constraints, c.Holds [q.1, q.2]}

/-- The feasible points of a program with two variables. -/
def region (p : Problem Rat) : Set (Rat × Rat) := {q | p.Feasible [q.1, q.2]}

variable {p : Problem Rat} {s : Settings Rat} {l : Line Rat} {x y u v t : Rat}

/-! ## Short steps -/

/-- A step of length `t` in a direction changes the left side of a line by no more than the point is
off the line. -/
def Line.StepWithin (l : Line Rat) (x y u v t : Rat) : Prop :=
  |t| * |l.a * u + l.b * v| ≤ |l.a * x + l.b * y - l.rhs|

namespace Line.StepWithin

variable (h : l.StepWithin x y u v t)

include h

theorem abs_le : |t * (l.a * u + l.b * v)| ≤ |l.a * x + l.b * y - l.rhs| := by
  rw [abs_mul]
  exact h

/-- **A short step stays on its side of a line.** -/
theorem le_rhs (hle : l.a * x + l.b * y ≤ l.rhs) :
    l.a * (x + t * u) + l.b * (y + t * v) ≤ l.rhs := by
  have hstep := h.abs_le
  rw [abs_of_nonpos (sub_nonpos.mpr hle)] at hstep
  linarith [le_abs_self (t * (l.a * u + l.b * v))]

theorem rhs_le (hle : l.rhs ≤ l.a * x + l.b * y) :
    l.rhs ≤ l.a * (x + t * u) + l.b * (y + t * v) := by
  have hstep := h.abs_le
  rw [abs_of_nonneg (sub_nonneg.mpr hle)] at hstep
  linarith [neg_abs_le (t * (l.a * u + l.b * v))]

end Line.StepWithin

/-- Steps are within all of some lines when they are short enough, if they follow the lines through
the point. -/
theorem exists_stepWithin {lines : List (Line Rat)}
    (h : ∀ l ∈ lines, l.Through x y → l.a * u + l.b * v = 0) :
    ∃ ε : Rat, 0 < ε ∧ ∀ t, |t| ≤ ε → ∀ l ∈ lines, l.StepWithin x y u v t := by
  induction lines with
  | nil => exact ⟨1, one_pos, fun t _ l hl => absurd hl List.not_mem_nil⟩
  | cons k rest ih =>
    obtain ⟨ε, hpos, hε⟩ := ih fun l hl => h l (List.mem_cons_of_mem _ hl)
    by_cases hdir : k.a * u + k.b * v = 0
    · refine ⟨ε, hpos, fun t ht l hl => ?_⟩
      rcases List.mem_cons.mp hl with rfl | hl
      · rw [Line.StepWithin, hdir, abs_zero, mul_zero]
        exact abs_nonneg _
      · exact hε t ht l hl
    · -- The point is off the line, and that distance bounds the step.
      have hslope : 0 < |k.a * u + k.b * v| := abs_pos.mpr hdir
      have hoff : 0 < |k.a * x + k.b * y - k.rhs| :=
        abs_pos.mpr fun h0 => hdir (h k List.mem_cons_self (sub_eq_zero.mp h0))
      refine ⟨min ε (|k.a * x + k.b * y - k.rhs| / |k.a * u + k.b * v|),
        lt_min hpos (div_pos hoff hslope), fun t ht l hl => ?_⟩
      rcases List.mem_cons.mp hl with rfl | hl
      · exact (le_div_iff₀ hslope).mp (ht.trans (min_le_right _ _))
      · exact hε t (ht.trans (min_le_left _ _)) l hl

/-! ## The region -/

/-- **Without a tolerance the check decides** whether a point is in the region. -/
theorem mem_feasibleSet_iff : (x, y) ∈ feasibleSet p ↔ p.isFeasible [x, y] 0 = true := by
  simp [feasibleSet, Problem.isFeasible_iff, Constraint.isSatisfied_zero_iff, and_assoc]

theorem region_eq_feasibleSet (hn : p.numVars = 2) : region p = feasibleSet p := by
  ext ⟨x, y⟩
  rw [mem_feasibleSet_iff]
  exact Problem.feasible_iff.trans (and_iff_right hn.symm)

theorem holds_of_stepWithin {c : Constraint Rat} (hc : c.coefficients.length = 2)
    (h : (edge c).StepWithin x y u v t) (hx : c.Holds [x, y]) :
    c.Holds [x + t * u, y + t * v] := by
  have hrhs : (edge c).rhs = c.rhs := rfl
  unfold Constraint.Holds at hx ⊢
  rw [lhs_eq hc, ← hrhs] at hx ⊢
  cases hs : c.sign <;> simp only [hs] at hx ⊢
  · exact h.le_rhs hx
  · exact h.rhs_le hx
  · exact le_antisymm (h.le_rhs hx.le) (h.rhs_le hx.ge)

/-- **A step within all boundary lines stays inside the region.** -/
theorem mem_feasibleSet_of_stepWithin (hp : Planar p) (hq : (x, y) ∈ feasibleSet p)
    (h : ∀ l ∈ edges p, l.StepWithin x y u v t) : (x + t * u, y + t * v) ∈ feasibleSet p := by
  obtain ⟨hx, hy, hc⟩ := hq
  have haxis : ∀ l ∈ axes, l.StepWithin x y u v t := fun l hl =>
    h l (List.mem_append_right _ hl)
  have hx' := (haxis ⟨1, 0, 0⟩ (by simp [axes])).rhs_le (by simpa using hx)
  have hy' := (haxis ⟨0, 1, 0⟩ (by simp [axes])).rhs_le (by simpa using hy)
  refine ⟨by simpa using hx', by simpa using hy', fun c hcm => ?_⟩
  exact holds_of_stepWithin (hp c hcm)
    (h _ (List.mem_append_left _ (List.mem_map_of_mem hcm))) (hc c hcm)

/-- **The region is convex.** -/
theorem convex_feasibleSet (hp : Planar p) : Convex Rat (feasibleSet p) := by
  rintro ⟨x₁, y₁⟩ ⟨hx₁, hy₁, hc₁⟩ ⟨x₂, y₂⟩ ⟨hx₂, hy₂, hc₂⟩ a b ha hb hab
  refine ⟨add_nonneg (mul_nonneg ha hx₁) (mul_nonneg hb hx₂),
    add_nonneg (mul_nonneg ha hy₁) (mul_nonneg hb hy₂), fun c hc => ?_⟩
  have hlhs : c.lhs [a * x₁ + b * x₂, a * y₁ + b * y₂] =
      a * c.lhs [x₁, y₁] + b * c.lhs [x₂, y₂] := by
    rw [lhs_eq (hp c hc), lhs_eq (hp c hc), lhs_eq (hp c hc)]
    ring
  have hrhs : a * c.rhs + b * c.rhs = c.rhs := by rw [← add_mul, hab, one_mul]
  have h₁ := hc₁ c hc
  have h₂ := hc₂ c hc
  show c.Holds [a * x₁ + b * x₂, a * y₁ + b * y₂]
  unfold Constraint.Holds at h₁ h₂ ⊢
  rw [hlhs, ← hrhs]
  cases hs : c.sign <;> simp only [hs] at h₁ h₂ ⊢
  · exact add_le_add (mul_le_mul_of_nonneg_left h₁ ha) (mul_le_mul_of_nonneg_left h₂ hb)
  · exact add_le_add (mul_le_mul_of_nonneg_left h₁ ha) (mul_le_mul_of_nonneg_left h₂ hb)
  · rw [h₁, h₂]

/-! ## Extreme points -/

/-- **An extreme point lies on two boundary lines that cross.** -/
theorem exists_edges_of_extreme (hp : Planar p)
    (hq : (x, y) ∈ (feasibleSet p).extremePoints Rat) :
    ∃ l ∈ edges p, ∃ m ∈ edges p, l.cross m ≠ 0 ∧ l.Through x y ∧ m.Through x y := by
  by_contra hno
  push Not at hno
  have hparallel : ∀ l ∈ (edges p).filter fun l => l.a * x + l.b * y = l.rhs,
      ∀ m ∈ (edges p).filter fun l => l.a * x + l.b * y = l.rhs, l.cross m = 0 := by
    intro l hl m hm
    rw [List.mem_filter, decide_eq_true_iff] at hl hm
    by_contra hcross
    exact hno l hl.1 m hm.1 hcross hl.2 hm.2
  obtain ⟨u, v, hdir, hzero⟩ := exists_direction hparallel
  obtain ⟨ε, hpos, hstep⟩ : ∃ ε : Rat, 0 < ε ∧
      ∀ t, |t| ≤ ε → ∀ l ∈ edges p, l.StepWithin x y u v t :=
    exists_stepWithin fun l hl ht => hzero l (List.mem_filter.mpr ⟨hl, decide_eq_true ht⟩)
  -- The point is the middle of a step forth and a step back, both inside the region.
  obtain ⟨hmem, hext⟩ := mem_extremePoints_iff_left.mp hq
  have hforth := mem_feasibleSet_of_stepWithin hp hmem (hstep ε (abs_of_pos hpos).le)
  have hback := mem_feasibleSet_of_stepWithin hp hmem
    (hstep (-ε) ((abs_neg ε).trans (abs_of_pos hpos)).le)
  have hmiddle : (x, y) ∈ openSegment Rat (x + ε * u, y + ε * v) (x + -ε * u, y + -ε * v) := by
    refine ⟨1 / 2, 1 / 2, by norm_num, by norm_num, by norm_num, ?_⟩
    simp only [Prod.smul_mk, smul_eq_mul, Prod.mk_add_mk, Prod.mk.injEq]
    constructor <;> ring
  have heq := hext _ hforth _ hback hmiddle
  simp only [Prod.mk.injEq, add_eq_left, mul_eq_zero, hpos.ne', false_or] at heq
  exact hdir.elim (fun hu => hu heq.1) (fun hv => hv heq.2)

/-- **Without tolerances every extreme point is a crossing.** -/
theorem mem_crossings_of_mem_extremePoints (hp : Planar p) (hpar : s.parallel = 0)
    (hfeas : s.feasibility = 0) (hq : (x, y) ∈ (feasibleSet p).extremePoints Rat) :
    ⟨x, y, none⟩ ∈ crossings p (edges p) s := by
  obtain ⟨l, hl, m, hm, hcross, hlq, hmq⟩ := exists_edges_of_extreme hp hq
  refine mem_crossings_of_through hl hm hpar hcross hlq hmq ?_
  rw [hfeas]
  exact mem_feasibleSet_iff.mp (extremePoints_subset hq)

theorem mem_crossings_of_extreme (hn : p.numVars = 2) (hp : Planar p) (hpar : s.parallel = 0)
    (hfeas : s.feasibility = 0) (hq : (x, y) ∈ (region p).extremePoints Rat) :
    ⟨x, y, none⟩ ∈ crossings p (edges p) s := by
  rw [region_eq_feasibleSet hn] at hq
  exact mem_crossings_of_mem_extremePoints hp hpar hfeas hq

end TableauSimplex.Plane
