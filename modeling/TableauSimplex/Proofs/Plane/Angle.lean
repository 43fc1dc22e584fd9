import Mathlib.Analysis.SpecialFunctions.Complex.Arg
import TableauSimplex.Scalar

/-!
# Directions and their angles

Directions are compared by the part of the turn that they belong to and by the side of the first
that the second lies on. This is the order of their angles between `-π`, excluded, and `π`
(`turnsBefore_iff`). Which side the second lies on says whether it is at most half a turn ahead
(`cross_pos_iff`).

* `angle`: the angle of a direction, in this range.
* `cross`: positive where the second direction lies to the left of the first.
-/

namespace TableauSimplex.Plane

open Real

/-- The angle of a direction, greater than `-π` and at most `π`. The angle of no direction is 0. -/
noncomputable def angle (u : Rat × Rat) : ℝ := Complex.arg ⟨u.1, u.2⟩

/-- Positive where the second direction lies to the left of the first, negative to the right. -/
def cross (u v : Rat × Rat) : Rat := u.1 * v.2 - u.2 * v.1

variable {u v : Rat × Rat} {x : ℝ}

theorem neg_pi_lt_angle (u : Rat × Rat) : -π < angle u := Complex.neg_pi_lt_arg _

theorem angle_le_pi (u : Rat × Rat) : angle u ≤ π := Complex.arg_le_pi _

theorem cross_self (u : Rat × Rat) : cross u u = 0 := by
  unfold cross
  ring

theorem cross_swap (u v : Rat × Rat) : cross v u = -cross u v := by
  unfold cross
  ring

/-! ## Sides -/

/-- The length of a direction. -/
private noncomputable def size (u : Rat × Rat) : ℝ := ‖(⟨u.1, u.2⟩ : ℂ)‖

private theorem size_pos (hu : u ≠ 0) : 0 < size u := by
  refine norm_pos_iff.mpr fun h => hu ?_
  simp only [Complex.ext_iff, Complex.zero_re, Complex.zero_im, Rat.cast_eq_zero] at h
  exact Prod.ext h.1 h.2

private theorem size_mul_cos (u : Rat × Rat) : size u * cos (angle u) = u.1 :=
  Complex.norm_mul_cos_arg _

private theorem size_mul_sin (u : Rat × Rat) : size u * sin (angle u) = u.2 :=
  Complex.norm_mul_sin_arg _

theorem cross_eq_sin (u v : Rat × Rat) :
    (cross u v : ℝ) = size u * size v * sin (angle v - angle u) := by
  rw [cross, sin_sub]
  push_cast
  rw [← size_mul_cos u, ← size_mul_cos v, ← size_mul_sin u, ← size_mul_sin v]
  ring

theorem dot_eq_cos (u v : Rat × Rat) :
    ((u.1 * v.1 + u.2 * v.2 : Rat) : ℝ) = size u * size v * cos (angle v - angle u) := by
  rw [cos_sub]
  push_cast
  rw [← size_mul_cos u, ← size_mul_cos v, ← size_mul_sin u, ← size_mul_sin v]
  ring

private theorem sin_pos_iff (h₁ : -(2 * π) < x) (h₂ : x < 2 * π) :
    0 < sin x ↔ (0 < x ∧ x < π) ∨ x < -π := by
  constructor
  · intro h
    by_contra hno
    push Not at hno
    refine h.not_ge ?_
    by_cases hx : 0 < x
    · rw [← sin_sub_two_pi]
      exact sin_nonpos_of_nonpos_of_neg_pi_le (by linarith) (by linarith [hno.1 hx])
    · exact sin_nonpos_of_nonpos_of_neg_pi_le (not_lt.mp hx) hno.2
  · rintro (⟨hpos, hlt⟩ | hlt)
    · exact sin_pos_of_pos_of_lt_pi hpos hlt
    · rw [← sin_add_two_pi]
      exact sin_pos_of_pos_of_lt_pi (by linarith) (by linarith)

/-- **A direction lies to the left of another** when it is less than half a turn ahead, across the
half axis on the left if need be. -/
theorem cross_pos_iff (hu : u ≠ 0) (hv : v ≠ 0) : 0 < cross u v ↔
    (angle u < angle v ∧ angle v < angle u + π) ∨ angle v + π < angle u := by
  have hsize : 0 < size u * size v := mul_pos (size_pos hu) (size_pos hv)
  have hlo := neg_pi_lt_angle v
  have hhi := angle_le_pi v
  have hlo' := neg_pi_lt_angle u
  have hhi' := angle_le_pi u
  rw [← Rat.cast_pos (K := ℝ), cross_eq_sin, mul_pos_iff_of_pos_left hsize,
    sin_pos_iff (by linarith) (by linarith)]
  refine or_congr (and_congr ?_ ?_) ?_ <;> constructor <;> intro h <;> linarith

/-- **Directions of one angle** are multiples of each other. -/
theorem exists_smul_of_angle_eq (hu : u ≠ 0) (hv : v ≠ 0) (h : angle u = angle v) :
    ∃ r : Rat, 0 < r ∧ v = r • u := by
  have hcross : cross u v = 0 := by
    rw [← Rat.cast_eq_zero (α := ℝ), cross_eq_sin, h, sub_self, sin_zero, mul_zero]
  have hdot : 0 < u.1 * v.1 + u.2 * v.2 := by
    rw [← Rat.cast_pos (K := ℝ), dot_eq_cos, h, sub_self, cos_zero, mul_one]
    exact mul_pos (size_pos hu) (size_pos hv)
  have hsq : 0 < u.1 * u.1 + u.2 * u.2 := by
    rw [← Rat.cast_pos (K := ℝ), dot_eq_cos, sub_self, cos_zero, mul_one]
    exact mul_pos (size_pos hu) (size_pos hu)
  refine ⟨(u.1 * v.1 + u.2 * v.2) / (u.1 * u.1 + u.2 * u.2), div_pos hdot hsq, ?_⟩
  unfold cross at hcross
  ext
  · rw [Prod.smul_fst, smul_eq_mul, div_mul_eq_mul_div, eq_div_iff hsq.ne']
    linear_combination -u.2 * hcross
  · rw [Prod.smul_snd, smul_eq_mul, div_mul_eq_mul_div, eq_div_iff hsq.ne']
    linear_combination u.1 * hcross

/-! ## The order of directions -/

theorem angle_neg_iff : angle u < 0 ↔ u.2 < 0 := Complex.arg_neg_iff.trans Rat.cast_lt_zero

theorem angle_eq_zero_iff : angle u = 0 ↔ 0 ≤ u.1 ∧ u.2 = 0 :=
  Complex.arg_eq_zero_iff.trans (and_congr Rat.cast_nonneg Rat.cast_eq_zero)

theorem angle_eq_pi_iff : angle u = π ↔ u.1 < 0 ∧ u.2 = 0 :=
  Complex.arg_eq_pi_iff.trans (and_congr Rat.cast_lt_zero Rat.cast_eq_zero)

/-- The part of the turn that a direction belongs to, by its angle. -/
private theorem turnPart_cases (u : Rat × Rat) :
    (turnPart u = 0 ∧ u.2 ≠ 0 ∧ angle u < 0) ∨ (turnPart u = 1 ∧ u.2 = 0 ∧ angle u = 0) ∨
      (turnPart u = 2 ∧ u.2 ≠ 0 ∧ 0 < angle u ∧ angle u < π) ∨
      (turnPart u = 3 ∧ u.2 = 0 ∧ angle u = π) := by
  unfold turnPart
  rcases lt_trichotomy u.2 0 with h | h | h
  · exact .inl ⟨if_pos h, h.ne, angle_neg_iff.mpr h⟩
  · by_cases h' : u.1 < 0
    · exact .inr (.inr (.inr ⟨by simp [h, h'], h, angle_eq_pi_iff.mpr ⟨h', h⟩⟩))
    · exact .inr (.inl ⟨by simp [h, h'], h, angle_eq_zero_iff.mpr ⟨not_lt.mp h', h⟩⟩)
  · have hneg : ¬angle u < 0 := fun h0 => h.not_gt (angle_neg_iff.mp h0)
    have hzero : angle u ≠ 0 := fun h0 => h.ne' (angle_eq_zero_iff.mp h0).2
    have hpi : angle u ≠ π := fun h0 => h.ne' (angle_eq_pi_iff.mp h0).2
    exact .inr (.inr (.inl ⟨by simp [h.not_gt, h.ne'], h.ne', (not_lt.mp hneg).lt_of_ne' hzero,
      (angle_le_pi u).lt_of_ne hpi⟩))

/-- **Angles grow from part to part.** -/
theorem angle_lt_of_turnPart_lt (h : turnPart u < turnPart v) : angle u < angle v := by
  have hpi := pi_pos
  rcases turnPart_cases u with hu | hu | hu | hu <;> rcases turnPart_cases v with hv | hv | hv | hv
    <;> grind

/-- Within a part angles are less than half a turn apart, or the part is one half of the axis. -/
private theorem part_cases (h : turnPart u = turnPart v) :
    (u.2 ≠ 0 ∧ v.2 ≠ 0 ∧ angle v < angle u + π ∧ angle u < angle v + π) ∨
      (u.2 = 0 ∧ v.2 = 0 ∧ angle u = angle v) := by
  have hu' := neg_pi_lt_angle u
  have hv' := neg_pi_lt_angle v
  rcases turnPart_cases u with hu | hu | hu | hu <;> rcases turnPart_cases v with hv | hv | hv | hv
    <;> grind

/-- **Within a part the greater angle is to the left.** -/
theorem cross_pos_iff_of_turnPart_eq (h : turnPart u = turnPart v) :
    0 < cross u v ↔ angle u < angle v := by
  rcases part_cases h with ⟨hu, hv, h₁, h₂⟩ | ⟨hu, hv, hangle⟩
  · have hu' : u ≠ 0 := fun h => hu (congrArg Prod.snd h)
    have hv' : v ≠ 0 := fun h => hv (congrArg Prod.snd h)
    rw [cross_pos_iff hu' hv', or_iff_left h₂.not_gt]
    exact and_iff_left h₁
  · simp [cross, hu, hv, hangle]

/-- **The order of directions is the order of their angles.** -/
theorem turnsBefore_iff : turnsBefore u v = true ↔ angle u < angle v := by
  have hcross : 0 < u.1 * v.2 - u.2 * v.1 ↔ 0 < cross u v := Iff.rfl
  rw [turnsBefore, Bool.or_eq_true, Bool.and_eq_true, decide_eq_true_iff, decide_eq_true_iff,
    beq_iff_eq, hcross]
  constructor
  · rintro (hlt | ⟨heq, hleft⟩)
    · exact angle_lt_of_turnPart_lt hlt
    · exact (cross_pos_iff_of_turnPart_eq heq).mp hleft
  · intro h
    rcases lt_trichotomy (turnPart u) (turnPart v) with hlt | heq | hgt
    · exact .inl hlt
    · exact .inr ⟨heq, (cross_pos_iff_of_turnPart_eq heq).mpr h⟩
    · exact absurd (angle_lt_of_turnPart_lt hgt) h.not_gt

end TableauSimplex.Plane
