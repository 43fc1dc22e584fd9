import TableauSimplex.Proofs.Plane.Centroid
import TableauSimplex.Proofs.Plane.Extreme

/-!
# The vertices go around the region

Extreme points of a convex set are seen under different angles from their centroid, and no third
point is in the cone of one and the next (`Around.cross_pos_or`). A point across the line through
these two would hide one of them, so all are to the left (`Around.turn_pos`). So when constraints
are not relaxed, the vertices of a region, if there are three or more, are a strictly convex polygon
(`feasibleVertices_convexPolygon`).

* `turn`: on which side of the line through two points a third lies.
* `ConvexPolygon`: points that go around a strictly convex polygon, counterclockwise.
* `Around`: extreme points of a convex set and a point that they surround.
* `IsNext`: no point is seen between the two.
-/

namespace TableauSimplex.Plane

open Real

/-- Positive where the way from one point by a second to a third turns left there. -/
def turn (a b q : Point Rat) : Rat := cross (b.x - a.x, b.y - a.y) (q.x - a.x, q.y - a.y)

/-- The points, read cyclically, are the corners of a strictly convex polygon in counterclockwise
order. -/
structure ConvexPolygon (points : List (Point Rat)) : Prop where
  /-- Every three points in a row make a left turn. -/
  left_turn : ∀ i a b c, points[i]? = some a → points[(i + 1) % points.length]? = some b →
    points[(i + 2) % points.length]? = some c → 0 < turn a b c
  /-- No point is to the right of the line through two points in a row. -/
  left_of : ∀ i a b, points[i]? = some a → points[(i + 1) % points.length]? = some b →
    ∀ q ∈ points, 0 ≤ turn a b q

variable {p : Problem Rat} {s : Settings Rat} {F : Set (Rat × Rat)} {c : Rat × Rat}
  {points : List (Point Rat)} {a b k q : Point Rat}

/-- The sides of a triangle seen from a point. -/
theorem turn_eq (c : Rat × Rat) (a b q : Point Rat) :
    turn a b q = cross (a.seenFrom c) (b.seenFrom c) + cross (b.seenFrom c) (q.seenFrom c) +
      cross (q.seenFrom c) (a.seenFrom c) := by
  unfold turn cross Point.seenFrom
  ring

/-! ## Extreme points around a point -/

/-- Extreme points of a convex set around one that is in the set, but none of them, and seen from
which they balance. -/
structure Around (F : Set (Rat × Rat)) (c : Rat × Rat) (points : List (Point Rat)) : Prop where
  convex : Convex Rat F
  center : c ∈ F
  extreme : ∀ q ∈ points, (q.x, q.y) ∈ F.extremePoints Rat
  ne_center : ∀ q ∈ points, (q.x, q.y) ≠ c
  balanced : ∀ u, (points.map fun q => cross u (q.seenFrom c)).sum = 0

namespace Around

variable (h : Around F c points)

include h

theorem seenFrom_ne_zero (hq : q ∈ points) : q.seenFrom c ≠ 0 := by
  intro h0
  refine h.ne_center q hq (Prod.ext ?_ ?_)
  · exact sub_eq_zero.mp (congrArg Prod.fst h0)
  · exact sub_eq_zero.mp (congrArg Prod.snd h0)

theorem mem (hq : q ∈ points) : (q.x, q.y) ∈ F := extremePoints_subset (h.extreme q hq)

/-- **No point is within the triangle** of the center and two others, nor on a side of it, except
for the corner itself. -/
theorem eq_of_smul_seenFrom {x y z : Rat} (hq : q ∈ points) (ha : a ∈ points) (hk : k ∈ points)
    (hx : 0 < x) (hy : 0 ≤ y) (hle : x + y ≤ z)
    (heq : z • q.seenFrom c = x • a.seenFrom c + y • k.seenFrom c) : (a.x, a.y) = (q.x, q.y) := by
  simp only [Point.seenFrom, Prod.smul_mk, smul_eq_mul, Prod.mk_add_mk, Prod.mk.injEq] at heq
  have hz : 0 < z := by linarith
  by_cases hxz : x = z
  · have hy0 : y = 0 := by linarith
    rw [hxz, hy0] at heq
    refine Prod.ext (mul_left_cancel₀ hz.ne' ?_) (mul_left_cancel₀ hz.ne' ?_)
    · linear_combination -heq.1
    · linear_combination -heq.2
  · -- The point is between `a` and a point on the way from the center to `k`.
    have hrest : 0 < z - x := sub_pos.mpr (lt_of_le_of_ne (by linarith) hxz)
    have hmiddle := h.convex (h.mem hk) h.center (div_nonneg hy hrest.le)
      (div_nonneg (by linarith : 0 ≤ z - x - y) hrest.le) (by field_simp; ring)
    refine (mem_extremePoints_iff_left.mp (h.extreme q hq)).2 _ (h.mem ha) _ hmiddle
      ⟨x / z, (z - x) / z, div_pos hx hz, div_pos hrest hz, by field_simp; ring, ?_⟩
    ext <;>
      simp only [Prod.smul_mk, smul_eq_mul, Prod.fst_add, Prod.snd_add, Prod.smul_fst,
        Prod.smul_snd] <;>
      field_simp
    · linear_combination -heq.1
    · linear_combination -heq.2

/-- **Two points under one angle are one.** -/
theorem eq_of_bearing_eq (ha : a ∈ points) (hb : b ∈ points)
    (hbearing : a.bearing c = b.bearing c) : (a.x, a.y) = (b.x, b.y) := by
  obtain ⟨r, hr, heq⟩ := exists_smul_of_angle_eq (h.seenFrom_ne_zero ha) (h.seenFrom_ne_zero hb)
    hbearing
  -- The nearer of the two is between the other and the center.
  rcases le_total r 1 with hle | hle
  · refine h.eq_of_smul_seenFrom hb ha ha hr le_rfl ((add_zero r).le.trans hle) ?_
    rw [one_smul, zero_smul, add_zero, heq]
  · refine (h.eq_of_smul_seenFrom ha hb hb one_pos le_rfl ((add_zero 1).le.trans hle) ?_).symm
    rw [one_smul, zero_smul, add_zero, heq]

theorem cross_pos_iff (ha : a ∈ points) (hb : b ∈ points) :
    0 < cross (a.seenFrom c) (b.seenFrom c) ↔
      (a.bearing c < b.bearing c ∧ b.bearing c < a.bearing c + π) ∨
        b.bearing c + π < a.bearing c :=
  Plane.cross_pos_iff (h.seenFrom_ne_zero ha) (h.seenFrom_ne_zero hb)

/-- Two points on one line through the center are seen under one angle or under opposite ones. -/
theorem bearing_cases (ha : a ∈ points) (hb : b ∈ points)
    (hcross : cross (a.seenFrom c) (b.seenFrom c) = 0) :
    b.bearing c = a.bearing c ∨
      b.bearing c = if 0 < a.bearing c then a.bearing c - π else a.bearing c + π := by
  have hab := (h.cross_pos_iff ha hb).not.mp hcross.not_gt
  have hba := (h.cross_pos_iff hb ha).not.mp (by rw [cross_swap, hcross]; simp)
  push Not at hab hba
  have hlo := b.neg_pi_lt_bearing c
  have hhi := b.bearing_le_pi c
  rcases lt_trichotomy (a.bearing c) (b.bearing c) with hlt | heq | hgt
  · right
    have hpi : b.bearing c = a.bearing c + π := le_antisymm hba.2 (hab.1 hlt)
    rw [if_neg (by linarith), hpi]
  · exact .inl heq.symm
  · right
    have hpi : a.bearing c = b.bearing c + π := le_antisymm hab.2 (hba.1 hgt)
    rw [if_pos (by linarith), hpi, add_sub_cancel_right]

/-- **Of three points or more some are to the left** of the direction of any one. -/
theorem exists_cross_pos (hnodup : (points.map (·.bearing c)).Nodup) (hlen : 3 ≤ points.length)
    (ha : a ∈ points) : ∃ k ∈ points, 0 < cross (a.seenFrom c) (k.seenFrom c) := by
  by_contra hno
  push Not at hno
  -- As the points balance, all are on one line through the center.
  have hline : ∀ k ∈ points, cross (a.seenFrom c) (k.seenFrom c) = 0 := by
    by_contra hoff
    push Not at hoff
    obtain ⟨k, hk, hne⟩ := hoff
    have hlt := List.sum_lt_sum (l := points) (fun k => cross (a.seenFrom c) (k.seenFrom c))
      (fun _ => 0) hno ⟨k, hk, (hno k hk).lt_of_ne hne⟩
    rw [h.balanced] at hlt
    simp at hlt
  have htwo : points.map (·.bearing c) ⊆ [a.bearing c,
      if 0 < a.bearing c then a.bearing c - π else a.bearing c + π] := by
    intro x hx
    obtain ⟨k, hk, rfl⟩ := List.mem_map.mp hx
    simpa using h.bearing_cases ha hk (hline k hk)
  have hle := (List.subperm_of_subset hnodup htwo).length_le
  rw [List.length_map] at hle
  exact absurd (hlen.trans hle) (by simp)

end Around

/-! ## Neighbours -/

/-- Seen from a center, no point is between two, which follow each other or are the last and the
first. -/
def IsNext (c : Rat × Rat) (points : List (Point Rat)) (a b : Point Rat) : Prop :=
  (a.bearing c < b.bearing c ∧
      ∀ k ∈ points, k.bearing c ≤ a.bearing c ∨ b.bearing c ≤ k.bearing c) ∨
    ∀ k ∈ points, b.bearing c ≤ k.bearing c ∧ k.bearing c ≤ a.bearing c

namespace Around

variable (h : Around F c points)

include h

/-- **The next point is to the left** when any is. -/
theorem cross_pos_of_isNext (ha : a ∈ points) (hb : b ∈ points) (hk : k ∈ points)
    (hnext : IsNext c points a b) (hpos : 0 < cross (a.seenFrom c) (k.seenFrom c)) :
    0 < cross (a.seenFrom c) (b.seenFrom c) := by
  rw [h.cross_pos_iff ha hk] at hpos
  rw [h.cross_pos_iff ha hb]
  have hlo := k.neg_pi_lt_bearing c
  have hhi := b.bearing_le_pi c
  rcases hnext with ⟨hab, hgap⟩ | hends
  · refine .inl ⟨hab, ?_⟩
    rcases hpos with ⟨hak, hlt⟩ | hlt
    · exact ((hgap k hk).resolve_left hak.not_ge).trans_lt hlt
    · linarith
  · obtain ⟨hbk, hka⟩ := hends k hk
    rcases hpos with ⟨hak, -⟩ | hlt
    · exact absurd hka hak.not_ge
    · exact .inr (by linarith)

/-- **No third point is in the cone** of a point and the next one. -/
theorem cross_pos_or (ha : a ∈ points) (hb : b ∈ points) (hk : k ∈ points)
    (hnext : IsNext c points a b) (hpos : 0 < cross (a.seenFrom c) (b.seenFrom c))
    (hka : k.bearing c ≠ a.bearing c) (hkb : k.bearing c ≠ b.bearing c) :
    0 < cross (k.seenFrom c) (a.seenFrom c) ∨ 0 < cross (b.seenFrom c) (k.seenFrom c) := by
  rw [h.cross_pos_iff ha hb] at hpos
  rw [h.cross_pos_iff hk ha, h.cross_pos_iff hb hk]
  have hlo := b.neg_pi_lt_bearing c
  have hhi := a.bearing_le_pi c
  rcases hnext with ⟨hab, hgap⟩ | hends
  · have hlt : b.bearing c < a.bearing c + π := by
      rcases hpos with ⟨-, hlt⟩ | hlt <;> linarith
    rcases hgap k hk with hle | hge
    · have hka' := hle.lt_of_ne hka
      by_cases hfar : a.bearing c < k.bearing c + π
      · exact .inl (.inl ⟨hka', hfar⟩)
      · exact .inr (.inr (by linarith))
    · have hbk := hge.lt_of_ne' hkb
      by_cases hfar : k.bearing c < b.bearing c + π
      · exact .inr (.inl ⟨hbk, hfar⟩)
      · exact .inl (.inr (by linarith))
  · have hbk := (hends k hk).1.lt_of_ne' hkb
    have hka' := (hends k hk).2.lt_of_ne hka
    by_cases hfar : k.bearing c < b.bearing c + π
    · exact .inr (.inl ⟨hbk, hfar⟩)
    · exact .inl (.inl ⟨hka', by linarith⟩)

/-- **Every third point is to the left** of the line from a point to the next one. -/
theorem turn_pos (ha : a ∈ points) (hb : b ∈ points) (hk : k ∈ points)
    (hnext : IsNext c points a b) (hpos : 0 < cross (a.seenFrom c) (b.seenFrom c))
    (hka : (k.x, k.y) ≠ (a.x, a.y)) (hkb : (k.x, k.y) ≠ (b.x, b.y)) : 0 < turn a b k := by
  have hab : (a.x, a.y) ≠ (b.x, b.y) := by
    intro heq
    rw [Point.seenFrom_congr heq, cross_self] at hpos
    exact hpos.false
  by_contra hturn
  rw [turn_eq c, not_lt] at hturn
  -- Seen from the center `k` is across the line, so it hides `a` or `b`.
  rcases h.cross_pos_or ha hb hk hnext hpos (fun heq => hka (h.eq_of_bearing_eq hk ha heq))
    (fun heq => hkb (h.eq_of_bearing_eq hk hb heq)) with hside | hside
  · refine hab (h.eq_of_smul_seenFrom (z := -cross (b.seenFrom c) (k.seenFrom c)) ha hb hk hside
      hpos.le (by linarith) ?_).symm
    ext <;> simp [cross] <;> ring
  · refine hab (h.eq_of_smul_seenFrom (z := -cross (k.seenFrom c) (a.seenFrom c)) hb ha hk hside
      hpos.le (by linarith) ?_)
    ext <;> simp [cross] <;> ring

end Around

/-! ## Points in order -/

/-- The next position, read cyclically. -/
private theorem succ_mod_cases {i n : Nat} (h : i < n) :
    (i + 1 < n ∧ (i + 1) % n = i + 1) ∨ (i + 1 = n ∧ (i + 1) % n = 0) := by
  rcases Nat.lt_or_ge (i + 1) n with hlt | hge
  · exact .inl ⟨hlt, Nat.mod_eq_of_lt hlt⟩
  · have heq : i + 1 = n := by omega
    exact .inr ⟨heq, by rw [heq, Nat.mod_self]⟩

private theorem add_two_mod_ne {i n : Nat} (h : i < n) (hn : 3 ≤ n) :
    (i + 2) % n ≠ i ∧ (i + 2) % n ≠ (i + 1) % n := by
  have hmod : (i + 2) % n = ((i + 1) % n + 1) % n := (Nat.mod_add_mod (i + 1) n 1).symm
  rw [hmod]
  rcases succ_mod_cases h with ⟨_, h₁⟩ | ⟨_, h₁⟩ <;>
    rcases succ_mod_cases (Nat.mod_lt (i + 1) (by omega : 0 < n)) with ⟨_, h₂⟩ | ⟨_, h₂⟩ <;>
    omega

section

variable {i j : Nat} (hs : points.Pairwise fun q r => q.bearing c < r.bearing c)

include hs

theorem bearing_lt_of_getElem? (ha : points[i]? = some a) (hb : points[j]? = some b)
    (hij : i < j) : a.bearing c < b.bearing c := by
  obtain ⟨hi, rfl⟩ := List.getElem?_eq_some_iff.mp ha
  obtain ⟨hj, rfl⟩ := List.getElem?_eq_some_iff.mp hb
  exact List.pairwise_iff_getElem.mp hs i j hi hj hij

theorem bearing_le_of_getElem? (ha : points[i]? = some a) (hb : points[j]? = some b)
    (hij : i ≤ j) : a.bearing c ≤ b.bearing c := by
  rcases hij.eq_or_lt with rfl | hij
  · rw [ha] at hb
    cases hb
    exact le_rfl
  · exact (bearing_lt_of_getElem? hs ha hb hij).le

theorem ne_of_getElem? (ha : points[i]? = some a) (hb : points[j]? = some b) (hij : i ≠ j) :
    (a.x, a.y) ≠ (b.x, b.y) := by
  intro heq
  have hbearing : a.bearing c = b.bearing c := congrArg angle (Point.seenFrom_congr heq)
  rcases hij.lt_or_gt with hlt | hgt
  · exact (bearing_lt_of_getElem? hs ha hb hlt).ne hbearing
  · exact (bearing_lt_of_getElem? hs hb ha hgt).ne' hbearing

/-- **In the order of bearings** the next point of the list is the next to be seen. -/
theorem isNext_of_getElem? (ha : points[i]? = some a)
    (hb : points[(i + 1) % points.length]? = some b) : IsNext c points a b := by
  obtain ⟨hi, -⟩ := List.getElem?_eq_some_iff.mp ha
  rcases succ_mod_cases hi with ⟨-, hmod⟩ | ⟨hlast, hmod⟩ <;> rw [hmod] at hb
  · refine .inl ⟨bearing_lt_of_getElem? hs ha hb i.lt_succ_self, fun k hk => ?_⟩
    obtain ⟨j, hj⟩ := List.mem_iff_getElem?.mp hk
    rcases Nat.lt_or_ge i j with hij | hji
    · exact .inr (bearing_le_of_getElem? hs hb hj hij)
    · exact .inl (bearing_le_of_getElem? hs hj ha hji)
  · refine .inr fun k hk => ?_
    obtain ⟨j, hj⟩ := List.mem_iff_getElem?.mp hk
    have hjlen : j < points.length := (List.getElem?_eq_some_iff.mp hj).1
    exact ⟨bearing_le_of_getElem? hs hb hj j.zero_le,
      bearing_le_of_getElem? hs hj ha (by omega)⟩

end

/-- In the order of bearings from the point that they surround, the way from a point to the next one
has every third point on its left. -/
theorem Around.turn_pos_of_getElem? {i : Nat} (h : Around F c points)
    (hs : points.Pairwise fun q r => q.bearing c < r.bearing c) (hlen : 3 ≤ points.length)
    (ha : points[i]? = some a) (hb : points[(i + 1) % points.length]? = some b) (hk : k ∈ points)
    (hka : (k.x, k.y) ≠ (a.x, a.y)) (hkb : (k.x, k.y) ≠ (b.x, b.y)) : 0 < turn a b k := by
  have hnodup : (points.map (·.bearing c)).Nodup :=
    List.pairwise_map.mpr (hs.imp fun hlt => hlt.ne)
  have hnext := isNext_of_getElem? hs ha hb
  have hma := List.mem_of_getElem? ha
  have hmb := List.mem_of_getElem? hb
  obtain ⟨r, hr, hleft⟩ := h.exists_cross_pos hnodup hlen hma
  exact h.turn_pos hma hmb hk hnext (h.cross_pos_of_isNext hma hmb hr hnext hleft) hka hkb

/-- **Three points or more in the order of their bearings** from the point that they surround are
the corners of a convex polygon. -/
theorem Around.convexPolygon (h : Around F c points)
    (hs : points.Pairwise fun q r => q.bearing c < r.bearing c) (hlen : 3 ≤ points.length) :
    ConvexPolygon points := by
  constructor
  · intro i a b d ha hb hd
    obtain ⟨hi, -⟩ := List.getElem?_eq_some_iff.mp ha
    obtain ⟨hda, hdb⟩ := add_two_mod_ne hi hlen
    exact h.turn_pos_of_getElem? hs hlen ha hb (List.mem_of_getElem? hd)
      (ne_of_getElem? hs hd ha hda) (ne_of_getElem? hs hd hb hdb)
  · intro i a b ha hb q hq
    by_cases hqa : (q.x, q.y) = (a.x, a.y)
    · rw [Prod.mk.injEq] at hqa
      simp [turn, cross, hqa.1, hqa.2]
    · by_cases hqb : (q.x, q.y) = (b.x, b.y)
      · rw [Prod.mk.injEq] at hqb
        rw [turn, hqb.1, hqb.2, cross_self]
      · exact (h.turn_pos_of_getElem? hs hlen ha hb hq hqa hqb).le

/-! ## The vertices -/

/-- **Different extreme points of a convex set surround their centroid.** -/
theorem around_centroid (hF : Convex Rat F) (hext : ∀ q ∈ points, (q.x, q.y) ∈ F.extremePoints Rat)
    (hne : points.Pairwise fun q r => (q.x, q.y) ≠ (r.x, r.y)) (hlen : 2 ≤ points.length) :
    Around F (centroid points) points := by
  have hmem : ∀ q ∈ points, (q.x, q.y) ∈ F := fun q hq => extremePoints_subset (hext q hq)
  have hnil : points ≠ [] := fun h => by simp [h] at hlen
  refine ⟨hF, centroid_mem hF hmem hnil, hext, fun q hq heq => ?_, sum_cross_seenFrom hnil⟩
  have hall : ∀ r ∈ points, (r.x, r.y) = centroid points := fun r hr =>
    eq_centroid_of_mem_extremePoints hF hmem (heq ▸ hext q hq) hr
  match points, hlen with
  | r :: r' :: rest, _ =>
    refine List.rel_of_pairwise_cons hne List.mem_cons_self ?_
    rw [hall r (by simp), hall r' (by simp)]

theorem Around.perm {points' : List (Point Rat)} (h : Around F c points)
    (hperm : points.Perm points') : Around F c points' where
  convex := h.convex
  center := h.center
  extreme := fun q hq => h.extreme q (hperm.mem_iff.mpr hq)
  ne_center := fun q hq => h.ne_center q (hperm.mem_iff.mpr hq)
  balanced := fun u => ((hperm.map _).sum_eq.symm).trans (h.balanced u)

/-- **Different extreme points of a convex set, in the order around their centroid,** are the
corners of a convex polygon. -/
theorem convexPolygon_aroundCentroid (hF : Convex Rat F)
    (hext : ∀ q ∈ points, (q.x, q.y) ∈ F.extremePoints Rat)
    (hne : points.Pairwise fun q r => (q.x, q.y) ≠ (r.x, r.y)) (hlen : 3 ≤ points.length) :
    ConvexPolygon (aroundCentroid points) := by
  have hperm := aroundCentroid_perm points
  have haround := (around_centroid hF hext hne (by omega)).perm hperm.symm
  have hne' := (hperm.pairwise_iff fun h => Ne.symm h).mpr hne
  refine haround.convexPolygon ?_ (hperm.length_eq ▸ hlen)
  refine ((aroundCentroid_pairwise points).and hne').imp_of_mem fun hq hr h => ?_
  exact h.1.lt_of_ne fun hbearing => h.2 (haround.eq_of_bearing_eq hq hr hbearing)

/-- **Without a tolerance for constraints three vertices or more are a strictly convex polygon** in
counterclockwise order. -/
theorem feasibleVertices_convexPolygon (hp : Planar p) (hfeas : s.feasibility = 0)
    (hdup : 0 < s.duplicate) :
    ∃ vertices, feasibleVertices p s = .ok vertices ∧
      (3 ≤ vertices.length → ConvexPolygon vertices) := by
  refine ⟨_, feasibleVertices_eq hp, fun hlen => ?_⟩
  rw [(aroundCentroid_perm _).length_eq] at hlen
  refine convexPolygon_aroundCentroid (convex_feasibleSet hp) (fun q hq => ?_) ?_ hlen
  · exact mem_extremePoints_of_mem_crossings hp hfeas (mem_crossings_of_mem_corners hq)
  · exact pairwise_corners.imp fun h => h.ne hdup

/-- A square with a corner cut off. One more line touches it where the cut ends. -/
def cutSquare : Problem Rat where
  sense := .maximize
  names := [.text "x", .text "y"]
  objective := [1, 1]
  constraints := [⟨[1, 1], .atMost, 6⟩, ⟨[1, 0], .atMost, 4⟩, ⟨[0, -1], .atLeast, -4⟩,
    ⟨[1, 3], .atMost, 14⟩]

/-- The cut square has five corners, and from the last the way goes on to the first. -/
theorem feasibleVertices_convexPolygon_cutSquare :
    ∃ vertices, feasibleVertices cutSquare (sharp (1 / 1000)) = .ok vertices ∧
      vertices.map (fun q => (q.x, q.y)) = [(0, 0), (4, 0), (4, 2), (2, 4), (0, 4)] ∧
      ConvexPolygon vertices := by
  obtain ⟨vertices, h, hpolygon⟩ := feasibleVertices_convexPolygon
    (p := cutSquare) (s := sharp (1 / 1000)) (by decide) rfl (by norm_num [sharp])
  have hvertices : vertices.map (fun q => (q.x, q.y)) =
      [(0, 0), (4, 0), (4, 2), (2, 4), (0, 4)] := by
    rw [feasibleVertices_eq (by decide)] at h
    cases h
    decide +kernel
  have hlen : vertices.length = 5 := by simpa using congrArg List.length hvertices
  exact ⟨vertices, h, hvertices, hpolygon (by omega)⟩

end TableauSimplex.Plane
