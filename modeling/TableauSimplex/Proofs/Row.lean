import Mathlib
import TableauSimplex.Tableau.Row

/-!
# Rows as vectors

A row of rationals is a vector over the columns, its right side standing right after the last
column. The row operations of an elimination are then linear: they scale a vector or subtract a
multiple of one from another.

* `vec_divide`, `vec_subMul`, `vec_clear`: the row operations on vectors.
* `excess`: by how much the left side of an equation exceeds its right side at a point, as a linear
  map on rows. It is zero on a row exactly when the point satisfies the row (`holds_iff`).
-/

namespace TableauSimplex

namespace Row

variable {r s : Row Rat} {d k : Rat} {col : Nat}

/-- The entries by column, the right side right after the last column and zero beyond. -/
def vec (r : Row Rat) : Nat → Rat := fun j => r.entries.getD j 0

@[simp] theorem vec_width : r.vec r.width = r.rhs := by
  simp [vec, entries, width]

theorem vec_of_lt {j : Nat} (h : j < r.width) : r.vec j = r.coefficients.getD j 0 := by
  simp only [vec, entries, width] at h ⊢
  rw [List.getD_append _ _ _ _ h]

theorem vec_of_gt {j : Nat} (h : r.width < j) : r.vec j = 0 := by
  simp only [vec, entries, width] at h ⊢
  rw [List.getD_eq_default _ _ (by simp; omega)]

/-- Rows of one width with the same vector are the same. -/
theorem eq_of_vec_eq (hw : r.width = s.width) (h : r.vec = s.vec) : r = s := by
  have hcoefficients : r.coefficients = s.coefficients := List.ext_getElem hw fun j h1 h2 => by
    have hj := congrFun h j
    rwa [vec_of_lt h1, vec_of_lt h2, List.getD_eq_getElem _ _ h1, List.getD_eq_getElem _ _ h2] at hj
  have hrhs : r.rhs = s.rhs := by
    rw [← vec_width, ← vec_width, h, hw]
  cases r
  cases s
  simp_all

theorem entry_eq_vec {j : Nat} (h : j ≤ r.width) : r.entry j = r.vec j := by
  rcases Nat.lt_or_eq_of_le h with h | rfl
  · rw [vec_of_lt h]
    simp only [entry, width] at h ⊢
    rw [List.getD_eq_getElem _ _ h, List.getD_eq_getElem _ _ h]
  · rw [vec_width]
    simp [entry, width]

/-! ## Row operations -/

@[simp] theorem width_divide : (r.divide d).width = r.width := by
  simp [divide, map, width]

theorem width_subMul (h : s.width = r.width) : (r.subMul k s).width = r.width := by
  simp only [subMul, zipWith, width, List.length_zipWith] at h ⊢
  omega

theorem width_clear (h : s.width = r.width) : (r.clear s col).width = r.width := by
  simp only [clear]
  split
  · rfl
  · exact width_subMul h

theorem vec_divide : (r.divide d).vec = d⁻¹ • r.vec := by
  funext j
  simp only [vec, entries, divide, map, Pi.smul_apply, smul_eq_mul]
  have h : r.coefficients.map (· / d) ++ [r.rhs / d] =
      (r.coefficients ++ [r.rhs]).map (· / d) := by simp
  rw [h, ← zero_div d, List.getD_map, div_eq_inv_mul, zero_div]

theorem vec_subMul (h : s.width = r.width) : (r.subMul k s).vec = r.vec - k • s.vec := by
  funext j
  have hw := width_subMul (k := k) h
  simp only [Pi.sub_apply, Pi.smul_apply, smul_eq_mul]
  rcases Nat.lt_trichotomy j r.width with hj | rfl | hj
  · rw [vec_of_lt (hw ▸ hj), vec_of_lt hj, vec_of_lt (h ▸ hj)]
    simp only [width] at h hj
    have hs : j < s.coefficients.length := h ▸ hj
    have hz : j < (List.zipWith (fun a b => a - k * b) r.coefficients s.coefficients).length := by
      rw [List.length_zipWith]; omega
    simp only [subMul, zipWith]
    rw [List.getD_eq_getElem _ _ hz, List.getD_eq_getElem _ _ hj, List.getD_eq_getElem _ _ hs,
      List.getElem_zipWith]
  · conv_lhs => rw [← hw]
    rw [vec_width, vec_width, ← h, vec_width]
    rfl
  · rw [vec_of_gt (hw ▸ hj), vec_of_gt hj, vec_of_gt (h ▸ hj)]
    ring

/-- Clearing a column subtracts the other row as often as the column says, also when that is not
at all. -/
theorem vec_clear (h : s.width = r.width) (hc : col ≤ r.width) :
    (r.clear s col).vec = r.vec - r.vec col • s.vec := by
  simp only [clear, entry_eq_vec hc, beq_iff_eq]
  split
  · rename_i h0
    rw [h0, zero_smul, sub_zero]
  · exact vec_subMul h

/-! ## Points -/

/-- The left side at a point that has a value for every column. -/
def lhs (r : Row Rat) (v : Nat → Rat) : Rat := ∑ j ∈ Finset.range r.width, r.vec j * v j

theorem lhs_add_smul (r : Row Rat) (v d : Nat → Rat) (a : Rat) :
    r.lhs (v + a • d) = r.lhs v + a * r.lhs d := by
  simp only [lhs, Pi.add_apply, Pi.smul_apply, smul_eq_mul, mul_add, Finset.sum_add_distrib,
    Finset.mul_sum]
  congr 1
  exact Finset.sum_congr rfl fun j _ => mul_left_comm _ _ _

theorem lhs_sub (r : Row Rat) (v d : Nat → Rat) : r.lhs (v - d) = r.lhs v - r.lhs d := by
  have h := r.lhs_add_smul v d (-1)
  rwa [neg_one_smul, ← sub_eq_add_neg, neg_one_mul, ← sub_eq_add_neg] at h

/-- By how much the left side of an equation over `n` columns exceeds the right side at a point. -/
def excess (n : Nat) (v : Nat → Rat) : (Nat → Rat) →ₗ[Rat] Rat where
  toFun w := (∑ j ∈ Finset.range n, w j * v j) - w n
  map_add' w u := by
    simp only [Pi.add_apply, add_mul, Finset.sum_add_distrib]
    ring
  map_smul' c w := by
    simp only [Pi.smul_apply, smul_eq_mul, mul_assoc, ← Finset.mul_sum, RingHom.id_apply]
    ring

theorem excess_vec {n : Nat} (h : r.width = n) (v : Nat → Rat) :
    excess n v r.vec = r.lhs v - r.rhs := by
  subst h
  simp only [excess, LinearMap.coe_mk, AddHom.coe_mk, lhs, vec_width]

theorem holds_iff {n : Nat} (h : r.width = n) (v : Nat → Rat) :
    r.lhs v = r.rhs ↔ excess n v r.vec = 0 := by
  rw [excess_vec h, sub_eq_zero]

end Row

end TableauSimplex
