import Mathlib

/-!
# Systems of linear inequalities

How far a point that nearly satisfies a system is from one that satisfies it. If the system has a
solution, there is one within a constant times the greatest excess (`exists_boundsDistance`). The
constant knows the coefficients alone: it is the same for all right sides, and for any number of
inequalities with coefficients from a finite set.

The proof eliminates one variable after the other.

* `Inequality.projection`: the system without its last variable.
* `Inequality.excess_projection_le`: what nearly satisfies a system nearly satisfies its projection.
* `Inequality.exists_extension`: a solution of the projection extends to one of the system, with a
  last coordinate as near to a given one as that is to satisfying the system.
-/

namespace TableauSimplex

/-- A linear inequality: the coefficients by position, and the right side that the left side may not
exceed. -/
abbrev Inequality := (Nat → Rat) × Rat

namespace Inequality

variable {n : Nat} {x u : Nat → Rat} {q r : Inequality} {S : Set Inequality}
  {N : Set (Nat → Rat)} {v w a δ ε κ : Rat}

/-- By how much the left side over `n` variables exceeds the right side at a point. -/
def excess (n : Nat) (x : Nat → Rat) : Inequality →ₗ[Rat] Rat where
  toFun q := (∑ j ∈ Finset.range n, q.1 j * x j) - q.2
  map_add' q r := by
    simp only [Prod.fst_add, Prod.snd_add, Pi.add_apply, add_mul, Finset.sum_add_distrib]
    ring
  map_smul' c q := by
    simp only [Prod.smul_fst, Prod.smul_snd, Pi.smul_apply, smul_eq_mul, mul_assoc,
      ← Finset.mul_sum, RingHom.id_apply]
    ring

theorem excess_apply (n : Nat) (x : Nat → Rat) (q : Inequality) :
    excess n x q = (∑ j ∈ Finset.range n, q.1 j * x j) - q.2 := rfl

theorem excess_succ : excess (n + 1) x q = excess n x q + q.1 n * x n := by
  rw [excess_apply, excess_apply, Finset.sum_range_succ]
  ring

/-- A new value for the last variable. -/
theorem excess_update : excess (n + 1) (Function.update x n v) q = excess n x q + q.1 n * v := by
  rw [excess_succ, Function.update_self, excess_apply, excess_apply]
  congr 2
  refine Finset.sum_congr rfl fun j hj => ?_
  rw [Function.update_of_ne (Finset.mem_range.mp hj).ne]

/-- Near points have near excesses. -/
theorem excess_le_add (hq : ∑ j ∈ Finset.range n, |q.1 j| ≤ a) (hδ : 0 ≤ δ)
    (hx : ∀ j < n, |x j - u j| ≤ δ) : excess n x q ≤ excess n u q + a * δ := by
  have hterm : ∀ j ∈ Finset.range n, q.1 j * x j ≤ q.1 j * u j + |q.1 j| * δ := fun j hj => by
    have hle := (le_abs_self _).trans_eq (abs_mul (q.1 j) (x j - u j))
    have hmul := mul_le_mul_of_nonneg_left (hx j (Finset.mem_range.mp hj)) (abs_nonneg (q.1 j))
    linarith
  have hsum := Finset.sum_le_sum hterm
  rw [Finset.sum_add_distrib, ← Finset.sum_mul] at hsum
  have hmul := mul_le_mul_of_nonneg_right hq hδ
  rw [excess_apply, excess_apply]
  linarith

/-! ## Elimination of the last variable -/

/-- The sum of two inequalities, scaled so that the variable `n` has coefficient one in size. -/
def eliminate (n : Nat) (q r : Inequality) : Inequality := |q.1 n|⁻¹ • q + |r.1 n|⁻¹ • r

/-- The system without the variable `n`: the inequalities that do not have it, and the sums of two
that have it with different signs. -/
def projection (n : Nat) (S : Set Inequality) : Set Inequality :=
  {q ∈ S | q.1 n = 0} ∪ Set.image2 (eliminate n) {q ∈ S | 0 < q.1 n} {q ∈ S | q.1 n < 0}

/-- The coefficients of a system without the variable `n`. -/
def projectedCoefficients (n : Nat) (N : Set (Nat → Rat)) : Set (Nat → Rat) :=
  N ∪ Set.image2 (fun a b => |a n|⁻¹ • a + |b n|⁻¹ • b) N N

theorem finite_projection (hS : S.Finite) : (projection n S).Finite :=
  (hS.subset (Set.sep_subset _ _)).union
    (Set.Finite.image2 _ (hS.subset (Set.sep_subset _ _)) (hS.subset (Set.sep_subset _ _)))

theorem finite_projectedCoefficients (hN : N.Finite) : (projectedCoefficients n N).Finite :=
  hN.union (Set.Finite.image2 _ hN hN)

theorem coefficients_projection (hS : ∀ q ∈ S, q.1 ∈ N) (hq : q ∈ projection n S) :
    q.1 ∈ projectedCoefficients n N := by
  rcases hq with ⟨hq, -⟩ | ⟨q, ⟨hq, -⟩, r, ⟨hr, -⟩, rfl⟩
  · exact .inl (hS q hq)
  · exact .inr ⟨q.1, hS q hq, r.1, hS r hr, rfl⟩

/-- In the sum the variable cancels out. -/
private theorem excess_eliminate (hq : 0 < q.1 n) (hr : r.1 n < 0) :
    excess n x (eliminate n q r) =
      (q.1 n)⁻¹ * excess (n + 1) x q + (-r.1 n)⁻¹ * excess (n + 1) x r := by
  have h1 : (q.1 n)⁻¹ * q.1 n = 1 := inv_mul_cancel₀ hq.ne'
  have h2 : (-r.1 n)⁻¹ * -r.1 n = 1 := inv_mul_cancel₀ (neg_pos.mpr hr).ne'
  rw [eliminate, map_add, map_smul, map_smul, abs_of_pos hq, abs_of_neg hr, excess_succ,
    excess_succ, smul_eq_mul, smul_eq_mul]
  linear_combination x n * h2 - x n * h1

/-- **What nearly satisfies a system nearly satisfies its projection.** -/
theorem excess_projection_le (hκ : ∀ q ∈ S, |q.1 n|⁻¹ ≤ κ) (hε : 0 ≤ ε)
    (hx : ∀ q ∈ S, excess (n + 1) x q ≤ ε) (hq : q ∈ projection n S) :
    excess n x q ≤ (2 * κ + 1) * ε := by
  rcases hq with ⟨hq, h0⟩ | ⟨q, ⟨hq, hpos⟩, r, ⟨hr, hneg⟩, rfl⟩
  · have hle := hx q hq
    have hκ0 : 0 ≤ κ * ε := mul_nonneg ((inv_nonneg.mpr (abs_nonneg _)).trans (hκ q hq)) hε
    rw [excess_succ, h0, zero_mul, add_zero] at hle
    linarith
  · have hqκ := hκ q hq
    have hrκ := hκ r hr
    rw [abs_of_pos hpos] at hqκ
    rw [abs_of_neg hneg] at hrκ
    have h1 : (q.1 n)⁻¹ * excess (n + 1) x q ≤ κ * ε :=
      (mul_le_mul_of_nonneg_left (hx q hq) (inv_pos.mpr hpos).le).trans
        (mul_le_mul_of_nonneg_right hqκ hε)
    have h2 : (-r.1 n)⁻¹ * excess (n + 1) x r ≤ κ * ε :=
      (mul_le_mul_of_nonneg_left (hx r hr) (inv_pos.mpr (neg_pos.mpr hneg)).le).trans
        (mul_le_mul_of_nonneg_right hrκ hε)
    rw [excess_eliminate hpos hneg]
    linarith

/-- The least value that an inequality with a negative coefficient of the variable `n` leaves. -/
private theorem le_lower_iff (hr : r.1 n < 0) :
    excess n x r + r.1 n * v ≤ 0 ↔ excess n x r / -r.1 n ≤ v := by
  rw [div_le_iff₀ (neg_pos.mpr hr)]
  constructor <;> intro h <;> linarith

/-- **A solution of the projection extends to one of the system.** The last coordinate is as near
to a given one as that is to satisfying the system. -/
theorem exists_extension (hS : S.Finite) (hδ : 0 ≤ δ)
    (hx : ∀ q ∈ projection n S, excess n x q ≤ 0)
    (hw : ∀ q ∈ S, q.1 n ≠ 0 → excess n x q + q.1 n * w ≤ |q.1 n| * δ) :
    ∃ v, |v - w| ≤ δ ∧ ∀ q ∈ S, excess n x q + q.1 n * v ≤ 0 := by
  -- The greatest of the values that are needed, and of those near enough.
  let needed : Set Rat := (fun r => excess n x r / -r.1 n) '' {r ∈ S | r.1 n < 0}
  have hfinite : (insert (w - δ) needed).Finite :=
    ((hS.subset (Set.sep_subset _ _)).image _).insert _
  obtain ⟨v, hv, hmax⟩ := Set.exists_max_image _ id hfinite ⟨w - δ, Set.mem_insert _ _⟩
  have hnear : ∀ c ∈ insert (w - δ) needed, c ≤ w + δ := by
    rintro c (rfl | ⟨r, ⟨hr, hneg⟩, rfl⟩)
    · linarith
    · have hle := hw r hr hneg.ne
      rw [abs_of_neg hneg] at hle
      refine (le_lower_iff hneg).mp ?_
      linarith
  have hbelow : ∀ q ∈ S, 0 < q.1 n → ∀ c ∈ insert (w - δ) needed,
      excess n x q + q.1 n * c ≤ 0 := by
    rintro q hq hpos c (rfl | ⟨r, ⟨hr, hneg⟩, rfl⟩)
    · have hle := hw q hq hpos.ne'
      rw [abs_of_pos hpos] at hle
      linarith
    · have hle := hx _ (.inr ⟨q, ⟨hq, hpos⟩, r, ⟨hr, hneg⟩, rfl⟩)
      rw [eliminate, map_add, map_smul, map_smul, abs_of_pos hpos, abs_of_neg hneg, smul_eq_mul,
        smul_eq_mul] at hle
      have hmul := mul_nonpos_of_nonneg_of_nonpos hpos.le hle
      rw [mul_add, mul_inv_cancel_left₀ hpos.ne'] at hmul
      show _ + q.1 n * (excess n x r / -r.1 n) ≤ 0
      rwa [div_eq_inv_mul]
  refine ⟨v, abs_le.mpr ⟨?_, ?_⟩, fun q hq => ?_⟩
  · have hle : w - δ ≤ v := hmax _ (Set.mem_insert _ _)
    linarith
  · have hle := hnear v hv
    linarith
  · rcases lt_trichotomy (q.1 n) 0 with hneg | h0 | hpos
    · exact (le_lower_iff hneg).mpr (hmax _ (.inr ⟨q, ⟨hq, hneg⟩, rfl⟩))
    · rw [h0, zero_mul, add_zero]
      exact hx q (.inl ⟨hq, h0⟩)
    · exact hbelow q hq hpos v hv

/-! ## Solutions near a point -/

/-- A system over `n` variables with coefficients from a set that has a solution has one near every
point: within `H` times the greatest excess of the point. -/
def BoundsDistance (n : Nat) (N : Set (Nat → Rat)) (H : Rat) : Prop :=
  ∀ S : Set Inequality, S.Finite → (∀ q ∈ S, q.1 ∈ N) → (∃ x, ∀ q ∈ S, excess n x q ≤ 0) →
    ∀ u ε, 0 ≤ ε → (∀ q ∈ S, excess n u q ≤ ε) →
      ∃ x, (∀ q ∈ S, excess n x q ≤ 0) ∧ ∀ j < n, |x j - u j| ≤ H * ε

/-- **One variable more.** The projection moves the other coordinates, and the last one follows
them. -/
theorem BoundsDistance.succ {H b : Rat} (h : BoundsDistance n (projectedCoefficients n N) H)
    (hH : 0 ≤ H) (hκ0 : 0 ≤ κ) (hκ : ∀ a ∈ N, |a n|⁻¹ ≤ κ) (hb0 : 0 ≤ b)
    (hb : ∀ a ∈ N, ∑ j ∈ Finset.range n, |a j| ≤ b) :
    BoundsDistance (n + 1) N
      (max (H * (2 * κ + 1)) (κ * (1 + b * (H * (2 * κ + 1))))) := by
  rintro S hS hSN ⟨y, hy⟩ u ε hε hu
  have hκS : ∀ q ∈ S, |q.1 n|⁻¹ ≤ κ := fun q hq => hκ _ (hSN q hq)
  have hy' : ∀ q ∈ projection n S, excess n y q ≤ 0 := fun q hq => by
    have hle := excess_projection_le hκS (le_refl 0) hy hq
    rwa [mul_zero] at hle
  obtain ⟨x, hx, hxu⟩ := h (projection n S) (finite_projection hS)
    (fun q hq => coefficients_projection hSN hq) ⟨y, hy'⟩ u ((2 * κ + 1) * ε) (by positivity)
    fun q hq => excess_projection_le hκS hε hu hq
  simp only [← mul_assoc] at hxu
  have hlast : ∀ q ∈ S, q.1 n ≠ 0 →
      excess n x q + q.1 n * u n ≤ |q.1 n| * (κ * (1 + b * (H * (2 * κ + 1))) * ε) := by
    intro q hq h0
    have hle := excess_le_add (hb _ (hSN q hq)) (by positivity) hxu
    have huq := hu q hq
    rw [excess_succ] at huq
    have hone : 1 ≤ |q.1 n| * κ := by
      have hmul := mul_le_mul_of_nonneg_left (hκS q hq) (abs_nonneg (q.1 n))
      rwa [mul_inv_cancel₀ (abs_ne_zero.mpr h0)] at hmul
    have hmul := mul_le_mul_of_nonneg_right hone
      (show 0 ≤ (1 + b * (H * (2 * κ + 1))) * ε by positivity)
    linarith
  obtain ⟨v, hvu, hv⟩ := exists_extension hS (by positivity) hx hlast
  refine ⟨Function.update x n v, fun q hq => ?_, fun j hj => ?_⟩
  · rw [excess_update]
    exact hv q hq
  · rcases Nat.lt_succ_iff_lt_or_eq.mp hj with hj | rfl
    · rw [Function.update_of_ne hj.ne]
      exact (hxu j hj).trans (mul_le_mul_of_nonneg_right (le_max_left _ _) hε)
    · rw [Function.update_self]
      exact hvu.trans (mul_le_mul_of_nonneg_right (le_max_right _ _) hε)

private theorem exists_upper_bound (hN : N.Finite) (f : (Nat → Rat) → Rat) :
    ∃ b, 0 ≤ b ∧ ∀ a ∈ N, f a ≤ b := by
  obtain ⟨b, hb⟩ := (hN.image f).bddAbove
  exact ⟨max 0 b, le_max_left _ _, fun a ha => (hb ⟨a, ha, rfl⟩).trans (le_max_right _ _)⟩

/-- **A system that has a solution has one near every point that nearly satisfies it.** -/
theorem exists_boundsDistance (n : Nat) {N : Set (Nat → Rat)} (hN : N.Finite) :
    ∃ H : Rat, 0 ≤ H ∧ BoundsDistance n N H := by
  induction n generalizing N with
  | zero =>
    refine ⟨0, le_refl _, fun S _ _ hsol u ε _ _ => ?_⟩
    obtain ⟨x, hx⟩ := hsol
    exact ⟨x, hx, fun j hj => absurd hj (Nat.not_lt_zero j)⟩
  | succ n ih =>
    obtain ⟨H, hH, h⟩ := ih (finite_projectedCoefficients (n := n) hN)
    obtain ⟨κ, hκ0, hκ⟩ := exists_upper_bound hN fun a => |a n|⁻¹
    obtain ⟨b, hb0, hb⟩ := exists_upper_bound hN fun a => ∑ j ∈ Finset.range n, |a j|
    exact ⟨_, le_max_of_le_left (by positivity), h.succ hH hκ0 hκ hb0 hb⟩

end Inequality

end TableauSimplex
