import TableauSimplex.Plane.Clip
import TableauSimplex.Proofs.Plane.Line
import TableauSimplex.Proofs.Sorting

/-!
# The part of a line inside a square

From any point of a line inside the square one gets, along the line and in either direction, to a
border point that is still inside (`Line.exists_borderPoint_before`, `exists_borderPoint_after`).
The order of points by their coordinates is the order along the line, so that the points inside lie
between the first and the last of the border points (`Line.mem_segment_of_key_le`). Border points a
little outside the square only make that stretch longer.

* `square`: the square from the origin to a limit, with a margin around it.
* `Line.part`: the part of a line inside the square.
* `Line.Encloses`: what the ends of a line say about that part.
* `Line.tryClip_encloses`: the ends are on the line and inside the square up to the margin, and
  enclose the part inside.
-/

namespace TableauSimplex.Plane

variable {l : Line Rat} {limit tol margin : Rat} {p q r : Point Rat}

/-! ## Points in the order of a line -/

/-- The coordinates of a point, for comparisons by the first of them that differs. -/
def Point.key (p : Point Rat) : Rat ×ₗ Rat := toLex (p.x, p.y)

theorem Point.key_le_iff : p.key ≤ q.key ↔ p.x < q.x ∨ p.x = q.x ∧ p.y ≤ q.y :=
  Prod.Lex.toLex_le_toLex

theorem Point.before_iff (p q : Point Rat) : p.before q = true ↔ p.key < q.key := by
  rw [key, key, Prod.Lex.toLex_lt_toLex, before]
  by_cases h : p.x = q.x
  · simp [h]
  · simp [h]

namespace Line

/-- Points of a line that is not horizontal lie between each other as their heights do. -/
theorem mem_segment_of_y {x₁ y₁ x₂ y₂ x₃ y₃ : Rat} (ha : l.a ≠ 0) (h₁ : l.Through x₁ y₁)
    (h₂ : l.Through x₂ y₂) (h₃ : l.Through x₃ y₃) (hy : y₂ ∈ segment Rat y₁ y₃) :
    (x₂, y₂) ∈ segment Rat (x₁, y₁) (x₃, y₃) := by
  obtain ⟨s, t, hs, ht, hst, hsum⟩ := hy
  simp only [smul_eq_mul] at hsum
  refine ⟨s, t, hs, ht, hst, Prod.ext (mul_left_cancel₀ ha ?_) hsum⟩
  unfold Through at h₁ h₂ h₃
  simp only [Prod.fst_add, Prod.smul_fst, smul_eq_mul]
  linear_combination s * h₁ + t * h₃ - h₂ + l.rhs * hst - l.b * hsum

/-- Points of a line that is not vertical lie between each other as their first coordinates do. -/
theorem mem_segment_of_x {x₁ y₁ x₂ y₂ x₃ y₃ : Rat} (hb : l.b ≠ 0) (h₁ : l.Through x₁ y₁)
    (h₂ : l.Through x₂ y₂) (h₃ : l.Through x₃ y₃) (hx : x₂ ∈ segment Rat x₁ x₃) :
    (x₂, y₂) ∈ segment Rat (x₁, y₁) (x₃, y₃) := by
  obtain ⟨s, t, hs, ht, hst, hsum⟩ := hx
  simp only [smul_eq_mul] at hsum
  refine ⟨s, t, hs, ht, hst, Prod.ext hsum (mul_left_cancel₀ hb ?_)⟩
  unfold Through at h₁ h₂ h₃
  simp only [Prod.snd_add, Prod.smul_snd, smul_eq_mul]
  linear_combination s * h₁ + t * h₃ - h₂ + l.rhs * hst - l.a * hsum

/-- **The order by coordinates is the order along a line.** -/
theorem mem_segment_of_key_le {q : Point Rat} (hl : l.a ≠ 0 ∨ l.b ≠ 0) (hp : l.Through p.x p.y)
    (hq : l.Through q.x q.y) (hr : l.Through r.x r.y) (hpq : p.key ≤ q.key) (hqr : q.key ≤ r.key) :
    (q.x, q.y) ∈ segment Rat (p.x, p.y) (r.x, r.y) := by
  rw [Point.key_le_iff] at hpq hqr
  by_cases hb : l.b = 0
  · -- On a vertical line the second coordinates decide.
    have ha : l.a ≠ 0 := hl.resolve_right (not_not.mpr hb)
    have hx : ∀ s : Point Rat, l.Through s.x s.y → s.x = l.rhs / l.a := fun s hs => by
      rw [Through, hb, zero_mul, add_zero] at hs
      rw [eq_div_iff ha, mul_comm, hs]
    have hpq' : p.y ≤ q.y := (hpq.resolve_left (by rw [hx p hp, hx q hq]; exact lt_irrefl _)).2
    have hqr' : q.y ≤ r.y := (hqr.resolve_left (by rw [hx q hq, hx r hr]; exact lt_irrefl _)).2
    refine mem_segment_of_y ha hp hq hr ?_
    rw [segment_eq_Icc (hpq'.trans hqr')]
    exact ⟨hpq', hqr'⟩
  · have hpq' : p.x ≤ q.x := hpq.elim le_of_lt fun h => h.1.le
    have hqr' : q.x ≤ r.x := hqr.elim le_of_lt fun h => h.1.le
    refine mem_segment_of_x hb hp hq hr ?_
    rw [segment_eq_Icc (hpq'.trans hqr')]
    exact ⟨hpq', hqr'⟩

end Line

/-- A point of a segment is no farther from one end than the other end is. -/
theorem abs_sub_le_of_mem_segment {x x₁ x₂ : Rat} (h : x ∈ segment Rat x₁ x₂) :
    |x - x₁| ≤ |x₁ - x₂| := by
  rw [segment_eq_uIcc] at h
  rw [abs_sub_comm x₁]
  exact Set.abs_sub_left_of_mem_uIcc h

/-! ## The square -/

/-- The square from the origin to a limit on both axes, with a margin around it. -/
def square (limit margin : Rat) : Set (Rat × Rat) :=
  {q | -margin ≤ q.1 ∧ q.1 ≤ limit + margin ∧ -margin ≤ q.2 ∧ q.2 ≤ limit + margin}

theorem mem_square_zero {x y : Rat} :
    (x, y) ∈ square limit 0 ↔ (0 ≤ x ∧ x ≤ limit) ∧ 0 ≤ y ∧ y ≤ limit := by
  simp [square, and_assoc]

theorem square_subset (h : 0 ≤ margin) : square limit 0 ⊆ square limit margin := by
  rintro ⟨x, y⟩ hq
  obtain ⟨⟨hx, hx'⟩, hy, hy'⟩ := mem_square_zero.mp hq
  exact ⟨by linarith, by linarith, by linarith, by linarith⟩

theorem Point.isInside_iff : p.isInside limit margin = true ↔ (p.x, p.y) ∈ square limit margin := by
  simp [isInside, square, and_assoc]

theorem slackOf_eq (limit : Rat) : slackOf limit = 1e-9 * max 1 limit := by
  have hmax : Scalar.max 1 limit = max 1 limit := by
    rw [Scalar.max, max_def]
    split <;> split <;> linarith
  rw [slackOf, hmax]

theorem slackOf_nonneg (limit : Rat) : 0 ≤ slackOf limit := by
  rw [slackOf_eq]
  exact mul_nonneg (by norm_num) (zero_le_one.trans (le_max_left _ _))

/-- The part of a line inside the square. -/
def Line.part (l : Line Rat) (limit : Rat) : Set (Rat × Rat) :=
  {q | q ∈ square limit 0 ∧ l.Through q.1 q.2}

/-! ## Border points -/

/-- Each coefficient is zero or above the tolerance in size, and one of them is not zero: the line
is not taken for one along an axis that it only resembles. -/
structure Line.Definite (l : Line Rat) (tol : Rat) : Prop where
  a : l.a = 0 ∨ tol < |l.a|
  b : l.b = 0 ∨ tol < |l.b|
  isLine : l.a ≠ 0 ∨ l.b ≠ 0

namespace Line

theorem through_of_mem_borderPoints (htol : 0 ≤ tol) (hp : p ∈ l.borderPoints limit tol) :
    l.Through p.x p.y := by
  have hne : ∀ c : Rat, tol < Scalar.abs c → c ≠ 0 := fun c hc h => by
    rw [Scalar.abs_eq, h, abs_zero] at hc
    exact htol.not_gt hc
  rw [borderPoints, List.mem_append] at hp
  unfold Through
  rcases hp with hp | hp
  · split at hp
    · rename_i hb
      have hb := hne _ hb
      rcases List.mem_pair.mp hp with rfl | rfl <;> field_simp <;> ring
    · cases hp
  · split at hp
    · rename_i ha
      have ha := hne _ ha
      rcases List.mem_pair.mp hp with rfl | rfl <;> field_simp <;> ring
    · cases hp

section

variable (hl : l.Definite tol)

include hl

/-- Where a line crosses one of the vertical border lines there is a border point. -/
theorem mem_borderPoints_of_x {x y : Rat} (hb : l.b ≠ 0) (h : l.Through x y)
    (hx : x = 0 ∨ x = limit) : ⟨x, y, none⟩ ∈ l.borderPoints limit tol := by
  have hsize : tol < Scalar.abs l.b := by
    rw [Scalar.abs_eq]
    exact hl.b.resolve_left hb
  have hy : y = (l.rhs - l.a * x) / l.b := by
    rw [eq_div_iff hb, ← h]
    ring
  rw [borderPoints, if_pos hsize]
  refine List.mem_append_left _ (List.mem_pair.mpr (hx.imp ?_ ?_))
  · rintro rfl
    rw [hy, mul_zero, sub_zero]
  · rintro rfl
    rw [hy]

/-- Where a line crosses one of the horizontal border lines there is a border point. -/
theorem mem_borderPoints_of_y {x y : Rat} (ha : l.a ≠ 0) (h : l.Through x y)
    (hy : y = 0 ∨ y = limit) : ⟨x, y, none⟩ ∈ l.borderPoints limit tol := by
  have hsize : tol < Scalar.abs l.a := by
    rw [Scalar.abs_eq]
    exact hl.a.resolve_left ha
  have hx : x = (l.rhs - l.b * y) / l.a := by
    rw [eq_div_iff ha, ← h]
    ring
  rw [borderPoints, if_pos hsize]
  refine List.mem_append_right _ (List.mem_pair.mpr (hy.imp ?_ ?_))
  · rintro rfl
    rw [hx, mul_zero, sub_zero]
  · rintro rfl
    rw [hx]

omit hl in
/-- A corner of the square has its coordinates inside. -/
theorem mem_of_isCorner {e : Rat} (he : e = 0 ∨ e = limit) (hlimit : 0 ≤ limit) :
    0 ≤ e ∧ e ≤ limit := by
  rcases he with rfl | rfl
  · exact ⟨le_rfl, hlimit⟩
  · exact ⟨hlimit, le_rfl⟩

/-- **Towards a vertical border line** there is a border point inside the square. -/
theorem exists_borderPoint_of_x {x y e : Rat} (hb : l.b ≠ 0) (hq : (x, y) ∈ l.part limit)
    (he : e = 0 ∨ e = limit) :
    ∃ c ∈ l.borderPoints limit tol, (c.x, c.y) ∈ l.part limit ∧ c.x ∈ segment Rat e x := by
  obtain ⟨hsquare, ht⟩ := hq
  obtain ⟨⟨hx, hx'⟩, hy, hy'⟩ := mem_square_zero.mp hsquare
  have he' : 0 ≤ e ∧ e ≤ limit := mem_of_isCorner he (hx.trans hx')
  obtain ⟨z, hz⟩ : ∃ z, l.Through e z :=
    ⟨(l.rhs - l.a * e) / l.b, by unfold Through; field_simp; ring⟩
  by_cases hin : 0 ≤ z ∧ z ≤ limit
  · exact ⟨⟨e, z, none⟩, mem_borderPoints_of_x hl hb hz he,
      ⟨mem_square_zero.mpr ⟨he', hin⟩, hz⟩, left_mem_segment ..⟩
  · -- The line leaves the square below or above before it gets there.
    obtain ⟨h, hh, hmem⟩ : ∃ h, (h = 0 ∨ h = limit) ∧ h ∈ segment Rat z y := by
      rw [segment_eq_uIcc]
      rcases lt_or_ge z 0 with hz0 | hz0
      · exact ⟨0, .inl rfl, Set.mem_uIcc_of_le hz0.le hy⟩
      · exact ⟨limit, .inr rfl, Set.mem_uIcc_of_ge hy' (not_le.mp fun h => hin ⟨hz0, h⟩).le⟩
    have ha : l.a ≠ 0 := fun ha => by
      unfold Through at hz ht
      rw [ha, zero_mul, zero_add] at hz ht
      have hzy : z = y := mul_left_cancel₀ hb (hz.trans ht.symm)
      exact hin (hzy ▸ ⟨hy, hy'⟩)
    obtain ⟨w, hw⟩ : ∃ w, l.Through w h :=
      ⟨(l.rhs - l.b * h) / l.a, by unfold Through; field_simp; ring⟩
    obtain ⟨s, t, hs, hs', hst, hsum⟩ := mem_segment_of_y ha hz hw ht hmem
    have hwx : w ∈ segment Rat e x := ⟨s, t, hs, hs', hst, congrArg Prod.fst hsum⟩
    have hw' : 0 ≤ w ∧ w ≤ limit :=
      (convex_Icc 0 limit).segment_subset he' ⟨hx, hx'⟩ hwx
    have hh' : 0 ≤ h ∧ h ≤ limit := mem_of_isCorner hh (hx.trans hx')
    exact ⟨⟨w, h, none⟩, mem_borderPoints_of_y hl ha hw hh,
      ⟨mem_square_zero.mpr ⟨hw', hh'⟩, hw⟩, hwx⟩

/-- **Towards a corner of the square** there is a border point inside: its first coordinate is on
the way, and where that is the one of the point, so is the second. -/
theorem exists_borderPoint {x y e : Rat} (hq : (x, y) ∈ l.part limit) (he : e = 0 ∨ e = limit) :
    ∃ c ∈ l.borderPoints limit tol, (c.x, c.y) ∈ l.part limit ∧ c.x ∈ segment Rat e x ∧
      (c.x = x → c.y ∈ segment Rat e y) := by
  by_cases hb : l.b = 0
  · -- A vertical line leads straight to the horizontal border lines.
    have ha : l.a ≠ 0 := hl.isLine.resolve_right (not_not.mpr hb)
    have ht : l.Through x e := by
      have hxy := hq.2
      unfold Through at hxy ⊢
      rwa [hb, zero_mul] at hxy ⊢
    obtain ⟨hx, hy, hy'⟩ := mem_square_zero.mp hq.1
    have he' : 0 ≤ e ∧ e ≤ limit := mem_of_isCorner he (hy.trans hy')
    exact ⟨⟨x, e, none⟩, mem_borderPoints_of_y hl ha ht he, ⟨mem_square_zero.mpr ⟨hx, he'⟩, ht⟩,
      right_mem_segment .., fun _ => left_mem_segment ..⟩
  · obtain ⟨c, hc, hpart, hmem⟩ := exists_borderPoint_of_x hl hb hq he
    refine ⟨c, hc, hpart, hmem, fun heq => ?_⟩
    have hcy : l.a * c.x + l.b * c.y = l.a * x + l.b * y := hpart.2.trans hq.2.symm
    rw [heq] at hcy
    rw [mul_left_cancel₀ hb (add_left_cancel hcy)]
    exact right_mem_segment ..

/-- **Before a point of the line inside the square** there is a border point inside. -/
theorem exists_borderPoint_before (hq : (q.x, q.y) ∈ l.part limit) :
    ∃ c ∈ l.borderPoints limit tol, (c.x, c.y) ∈ l.part limit ∧ c.key ≤ q.key := by
  obtain ⟨⟨hx, -⟩, hy, -⟩ := mem_square_zero.mp hq.1
  obtain ⟨c, hc, hpart, hcx, hcy⟩ := exists_borderPoint hl hq (.inl rfl)
  rw [segment_eq_Icc hx] at hcx
  rw [segment_eq_Icc hy] at hcy
  exact ⟨c, hc, hpart, Point.key_le_iff.mpr
    (hcx.2.lt_or_eq.imp_right fun heq => ⟨heq, (hcy heq).2⟩)⟩

/-- **After a point of the line inside the square** there is a border point inside. -/
theorem exists_borderPoint_after (hq : (q.x, q.y) ∈ l.part limit) :
    ∃ c ∈ l.borderPoints limit tol, (c.x, c.y) ∈ l.part limit ∧ q.key ≤ c.key := by
  obtain ⟨⟨-, hx⟩, -, hy⟩ := mem_square_zero.mp hq.1
  obtain ⟨c, hc, hpart, hcx, hcy⟩ := exists_borderPoint hl hq (.inr rfl)
  rw [segment_symm, segment_eq_Icc hx] at hcx
  rw [segment_symm, segment_eq_Icc hy] at hcy
  exact ⟨c, hc, hpart, Point.key_le_iff.mpr
    (hcx.1.lt_or_eq.imp_right fun heq => ⟨heq, (hcy heq.symm).1⟩)⟩

end

/-! ## The ends -/

/-- The border points inside the square up to the slack, in order. -/
def inside (l : Line Rat) (limit tol : Rat) : List (Point Rat) :=
  Sorting.insertionSort Point.before
    ((l.borderPoints limit tol).filter (·.isInside limit (slackOf limit)))

theorem mem_inside_iff : p ∈ l.inside limit tol ↔
    p ∈ l.borderPoints limit tol ∧ (p.x, p.y) ∈ square limit (slackOf limit) := by
  rw [inside, (Sorting.insertionSort_perm _).mem_iff, List.mem_filter, Point.isInside_iff]

theorem mem_inside_of_mem_part (hp : p ∈ l.borderPoints limit tol)
    (hpart : (p.x, p.y) ∈ l.part limit) : p ∈ l.inside limit tol :=
  mem_inside_iff.mpr ⟨hp, square_subset (slackOf_nonneg limit) hpart.1⟩

/-- **The ends are the first and the last of the points inside,** or the first alone when the last
is near it. -/
theorem clip_cases (l : Line Rat) (limit tol : Rat) :
    (l.inside limit tol = [] ∧ l.clip limit tol = []) ∨
      ∃ first ∈ l.inside limit tol, ∃ last ∈ l.inside limit tol,
        (∀ c ∈ l.inside limit tol, first.key ≤ c.key ∧ c.key ≤ last.key) ∧
          (l.clip limit tol = [first, last] ∨ l.clip limit tol = [first] ∧
            |first.x - last.x| ≤ slackOf limit ∧ |first.y - last.y| ≤ slackOf limit) := by
  have hsorted : (l.inside limit tol).Pairwise fun p q => p.key ≤ q.key :=
    Sorting.insertionSort_pairwise Point.before_iff _
  have hinside : Sorting.insertionSort Point.before
      ((l.borderPoints limit tol).filter (·.isInside limit (slackOf limit))) =
        l.inside limit tol := rfl
  simp only [clip, hinside]
  generalize l.inside limit tol = points at hsorted
  match points with
  | [] => exact .inl ⟨rfl, rfl⟩
  | [first] =>
    refine .inr ⟨first, List.mem_cons_self, first, List.mem_cons_self, ?_, .inr ⟨rfl, ?_⟩⟩
    · intro c hc
      obtain rfl := List.mem_singleton.mp hc
      exact ⟨le_rfl, le_rfl⟩
    · simp [slackOf_nonneg]
  | first :: second :: others =>
    obtain ⟨front, last, hlast⟩ : ∃ front last, first :: second :: others = front ++ [last] :=
      ⟨_, _, (List.dropLast_append_getLast (List.cons_ne_nil _ _)).symm⟩
    have hmem : last ∈ first :: second :: others := hlast ▸ List.mem_append_right _ (by simp)
    have hfirst : ∀ c ∈ first :: second :: others, first.key ≤ c.key :=
      List.forall_mem_cons.mpr ⟨le_rfl, (List.pairwise_cons.mp hsorted).1⟩
    have hle : ∀ c ∈ first :: second :: others, c.key ≤ last.key := by
      rw [hlast] at hsorted ⊢
      exact List.forall_mem_append.mpr ⟨fun c hc => (List.pairwise_append.mp hsorted).2.2 c hc last
        (by simp), by simp⟩
    refine .inr ⟨first, List.mem_cons_self, last, hmem, fun c hc => ⟨hfirst c hc, hle c hc⟩, ?_⟩
    rw [List.getLast?_eq_some_iff.mpr ⟨front, hlast⟩]
    simp only [Scalar.abs_eq, Bool.and_eq_true, decide_eq_true_eq]
    split
    · rename_i hnear
      exact .inr ⟨rfl, hnear⟩
    · exact .inl rfl

/-- What the ends of a line say about its part inside the square: there is none, it is close to a
point, or it lies on a segment. -/
def Encloses (l : Line Rat) (limit margin : Rat) : List (Point Rat) → Prop
  | [] => l.part limit = ∅
  | [p] => ∀ q ∈ l.part limit, |q.1 - p.x| ≤ margin ∧ |q.2 - p.y| ≤ margin
  | [p, r] => l.part limit ⊆ segment Rat (p.x, p.y) (r.x, r.y)
  | _ => False

/-- **The points inside lie between the first and the last border point.** -/
theorem part_subset_segment (htol : 0 ≤ tol) (hl : l.Definite tol) (hp : p ∈ l.inside limit tol)
    (hr : r ∈ l.inside limit tol)
    (hbetween : ∀ c ∈ l.inside limit tol, p.key ≤ c.key ∧ c.key ≤ r.key) :
    l.part limit ⊆ segment Rat (p.x, p.y) (r.x, r.y) := by
  rintro ⟨x, y⟩ hq
  obtain ⟨c, hc, hcpart, hcq⟩ := exists_borderPoint_before (q := ⟨x, y, none⟩) hl hq
  obtain ⟨d, hd, hdpart, hqd⟩ := exists_borderPoint_after (q := ⟨x, y, none⟩) hl hq
  exact mem_segment_of_key_le (q := ⟨x, y, none⟩) hl.isLine
    (through_of_mem_borderPoints htol (mem_inside_iff.mp hp).1) hq.2
    (through_of_mem_borderPoints htol (mem_inside_iff.mp hr).1)
    ((hbetween c (mem_inside_of_mem_part hc hcpart)).1.trans hcq)
    (hqd.trans (hbetween d (mem_inside_of_mem_part hd hdpart)).2)

/-- **The ends of a line enclose its part inside the square.** -/
theorem encloses_clip (htol : 0 ≤ tol) (hl : l.Definite tol) :
    l.Encloses limit (slackOf limit) (l.clip limit tol) := by
  rcases clip_cases l limit tol with ⟨hnone, hclip⟩ |
    ⟨first, hfirst, last, hlast, hbetween, hclip | ⟨hclip, hx, hy⟩⟩
  · rw [hclip]
    refine Set.eq_empty_of_forall_notMem fun ⟨x, y⟩ hq => ?_
    obtain ⟨c, hc, hpart, -⟩ := exists_borderPoint_before (q := ⟨x, y, none⟩) hl hq
    have hmem : c ∈ l.inside limit tol := mem_inside_of_mem_part hc hpart
    rw [hnone] at hmem
    cases hmem
  · rw [hclip]
    exact part_subset_segment htol hl hfirst hlast hbetween
  · rw [hclip]
    intro q hq
    have hmem := part_subset_segment htol hl hfirst hlast hbetween hq
    obtain ⟨s, t, hs, ht, hst, hsum⟩ := hmem
    exact ⟨(abs_sub_le_of_mem_segment ⟨s, t, hs, ht, hst, congrArg Prod.fst hsum⟩).trans hx,
      (abs_sub_le_of_mem_segment ⟨s, t, hs, ht, hst, congrArg Prod.snd hsum⟩).trans hy⟩

theorem mem_inside_of_mem_clip (h : p ∈ l.clip limit tol) : p ∈ l.inside limit tol := by
  rcases clip_cases l limit tol with ⟨-, hclip⟩ |
    ⟨first, hfirst, last, hlast, -, hclip | ⟨hclip, -⟩⟩
  · rw [hclip] at h
    cases h
  · rw [hclip] at h
    rcases List.mem_pair.mp h with rfl | rfl
    · exact hfirst
    · exact hlast
  · rw [hclip] at h
    obtain rfl := List.mem_singleton.mp h
    exact hfirst

/-- With a tolerance that is not negative there is no division by zero. -/
theorem tryClip_eq (htol : 0 ≤ tol) : l.tryClip limit tol = .ok (l.clip limit tol) := by
  have hdivides : ∀ c : Rat, (tol < Scalar.abs c && c == 0) = false := fun c => by
    by_cases hc : c = 0
    · simp [hc, Scalar.abs_eq, htol]
    · simp [hc]
  rw [tryClip]
  simp [hdivides]

/-- **The ends of the part of a line inside a square.** Every end is on the line and at most the
margin outside the square. Without an end the line misses the square; with one, the part inside is
within the margin of it in each coordinate; with two, it lies on the segment between them. -/
theorem tryClip_encloses (htol : 0 ≤ tol) (hl : l.Definite tol) :
    ∃ ends, l.tryClip limit tol = .ok ends ∧
      (∀ p ∈ ends, l.Through p.x p.y ∧ (p.x, p.y) ∈ square limit (1e-9 * max 1 limit)) ∧
      l.Encloses limit (1e-9 * max 1 limit) ends := by
  refine ⟨_, tryClip_eq htol, fun p hp => ?_, ?_⟩
  · obtain ⟨hborder, hsquare⟩ := mem_inside_iff.mp (mem_inside_of_mem_clip hp)
    exact ⟨through_of_mem_borderPoints htol hborder, slackOf_eq limit ▸ hsquare⟩
  · rw [← slackOf_eq]
    exact encloses_clip htol hl

end Line

/-- A line that crosses the lower and the upper border of a square, and misses the other two. -/
def steep : Line Rat := ⟨2, -1, 3⟩

/-- Two of the four border points are the ends, and the part inside lies between them. -/
theorem tryClip_encloses_steep :
    steep.Definite 1e-10 ∧ steep.tryClip 10 1e-10 = .ok [⟨3 / 2, 0, none⟩, ⟨13 / 2, 10, none⟩] ∧
      steep.part 10 ⊆ segment Rat (3 / 2, 0) (13 / 2, 10) := by
  have hdefinite : steep.Definite 1e-10 := {
    a := .inr (by norm_num [steep])
    b := .inr (by norm_num [steep])
    isLine := .inl (by norm_num [steep]) }
  have htol : (0 : Rat) ≤ 1e-10 := by norm_num
  obtain ⟨ends, h, -, hencloses⟩ := @Line.tryClip_encloses steep 10 1e-10 htol hdefinite
  obtain rfl : ends = [⟨3 / 2, 0, none⟩, ⟨13 / 2, 10, none⟩] := by
    rw [Line.tryClip_eq htol] at h
    cases h
    decide +kernel
  exact ⟨hdefinite, h, hencloses⟩

end TableauSimplex.Plane
