import TableauSimplex.Proofs.Row
import TableauSimplex.Tableau.Reading

/-!
# Canonical tableaux

A tableau is canonical when every basic column is a unit column: one in its own row, zero in every
other row and in the objective row. A pivot on a nonzero entry keeps a tableau canonical
(`Canonical.pivot`), and it keeps the equations the tableau stands for: the constraint rows span
the same space (`rowSpace_pivot`), and the objective row changes by a vector of that space
(`objective_pivot`).

The values read off a canonical tableau solve its equations (`Canonical.solves_valueOf`), and
nothing else does with the same values off the basis (`Canonical.eq_of_rows`).
-/

namespace TableauSimplex

namespace Tableau

variable {t t' : Tableau Rat} {row col i j k : Nat}

/-! ## Rows by number -/

theorem rowAt_of_lt (h : i < t.rows.length) : t.rowAt i = t.rows[i] :=
  List.getD_eq_getElem _ _ h

@[simp] theorem rowAt_length : t.rowAt t.rows.length = t.objective := by
  simp [rowAt]

theorem forall_mem_rows {P : Row Rat → Prop} :
    (∀ r ∈ t.rows, P r) ↔ ∀ i < t.rows.length, P (t.rowAt i) := by
  constructor
  · intro h i hi
    rw [rowAt_of_lt hi]
    exact h _ (List.getElem_mem hi)
  · intro h r hr
    obtain ⟨i, hi, rfl⟩ := List.getElem_of_mem hr
    rw [← rowAt_of_lt hi]
    exact h i hi

/-- The column that is basic in a row. -/
def basicCol (t : Tableau Rat) (i : Nat) : Nat := (t.basis.getD i 0).toNat

/-- Every row has an entry for every column, every column has a name, and every constraint row has
a basic column. -/
structure WellShaped (t : Tableau Rat) : Prop where
  width_eq : ∀ r ∈ t.rows, r.width = t.numColumns
  length_headers : t.headers.length = t.numColumns
  length_basis : t.basis.length = t.rows.length
  basis_lt : ∀ c ∈ t.basis, ∃ j < t.numColumns, c = (j : Int)

/-- A well-shaped tableau whose basic columns are unit columns. -/
structure Canonical (t : Tableau Rat) : Prop extends WellShaped t where
  unit : ∀ i < t.rows.length, ∀ k ≤ t.rows.length,
    (t.rowAt k).vec (t.basicCol i) = if k = i then 1 else 0

namespace WellShaped

theorem width_rowAt (h : t.WellShaped) (k : Nat) : (t.rowAt k).width = t.numColumns := by
  by_cases hk : k < t.rows.length
  · rw [rowAt_of_lt hk]
    exact h.width_eq _ (List.getElem_mem hk)
  · rw [rowAt, List.getD_eq_default _ _ (by omega)]
    rfl

theorem basis_eq (h : t.WellShaped) (hb : i < t.basis.length) :
    t.basis[i] = (t.basicCol i : Int) ∧ t.basicCol i < t.numColumns := by
  obtain ⟨j, hj, hc⟩ := h.basis_lt _ (List.getElem_mem hb)
  have he : t.basicCol i = j := by
    rw [basicCol, List.getD_eq_getElem _ _ hb, hc, Int.toNat_natCast]
  exact ⟨by rw [hc, he], he ▸ hj⟩

theorem basicCol_lt (h : t.WellShaped) (hi : i < t.rows.length) :
    t.basicCol i < t.numColumns :=
  (h.basis_eq (h.length_basis ▸ hi)).2

end WellShaped

/-! ## One pivot -/

/-- The row of a pivot, divided by its entry in the column of the pivot. -/
def unitVec (t : Tableau Rat) (row col : Nat) : Nat → Rat :=
  ((t.rowAt row).vec col)⁻¹ • (t.rowAt row).vec

@[simp] theorem length_rows_pivot : (t.pivot row col).rows.length = t.rows.length := by
  simp [pivot]

theorem rowAt_length_pivot :
    (t.pivot row col).rowAt t.rows.length = (t.pivot row col).objective := by
  have h := rowAt_length (t := t.pivot row col)
  rwa [length_rows_pivot] at h

theorem rowAt_pivot (hr : row < t.rows.length) (hk : k ≤ t.rows.length) :
    (t.pivot row col).rowAt k =
      if k = row then (t.rowAt row).divide ((t.rowAt row).entry col)
      else (t.rowAt k).clear ((t.rowAt row).divide ((t.rowAt row).entry col)) col := by
  rcases Nat.lt_or_eq_of_le hk with hk | rfl
  · rw [rowAt_of_lt (by rwa [length_rows_pivot])]
    simp only [pivot, List.getElem_mapIdx]
    rw [rowAt_of_lt hk]
  · rw [rowAt_length_pivot]
    simp only [pivot]
    rw [if_neg (by omega), if_neg (by omega), rowAt_length]

namespace WellShaped

variable (h : t.WellShaped) (hr : row < t.rows.length) (hc : col < t.numColumns)

include h

theorem width_unit :
    ((t.rowAt row).divide ((t.rowAt row).entry col)).width = (t.rowAt k).width := by
  rw [Row.width_divide, h.width_rowAt, h.width_rowAt]

include hr in
theorem numColumns_pivot : (t.pivot row col).numColumns = t.numColumns := by
  have ho : (t.pivot row col).numColumns =
      ((t.pivot row col).rowAt t.rows.length).width := by
    rw [rowAt_length_pivot]
    rfl
  rw [ho, rowAt_pivot hr (Nat.le_refl _), if_neg (by omega), Row.width_clear h.width_unit,
    h.width_rowAt]

include hr hc

/-- What a pivot makes of each row, the objective row included. -/
theorem vec_rowAt_pivot (hk : k ≤ t.rows.length) :
    ((t.pivot row col).rowAt k).vec =
      if k = row then t.unitVec row col
      else (t.rowAt k).vec - (t.rowAt k).vec col • t.unitVec row col := by
  have hcol : ∀ i, col ≤ (t.rowAt i).width := fun i => by rw [h.width_rowAt]; omega
  rw [rowAt_pivot hr hk]
  split
  · rw [Row.vec_divide, Row.entry_eq_vec (hcol row), unitVec]
  · rw [Row.vec_clear h.width_unit (hcol k), Row.vec_divide, Row.entry_eq_vec (hcol row), unitVec]

omit hc in
theorem basicCol_pivot : (t.pivot row col).basicCol i = if i = row then col else t.basicCol i := by
  have hb : row < t.basis.length := h.length_basis ▸ hr
  simp only [basicCol, pivot, List.getD_eq_getElem?_getD]
  split
  · rename_i hi
    subst hi
    rw [List.getElem?_set_self hb]
    rfl
  · rename_i hi
    rw [List.getElem?_set_ne (Ne.symm hi)]

theorem pivot : (t.pivot row col).WellShaped where
  width_eq := by
    rw [forall_mem_rows]
    intro k hk
    rw [length_rows_pivot] at hk
    rw [h.numColumns_pivot hr, rowAt_pivot hr (by omega)]
    split
    · rw [Row.width_divide, h.width_rowAt]
    · rw [Row.width_clear h.width_unit, h.width_rowAt]
  length_headers := by rw [h.numColumns_pivot hr]; exact h.length_headers
  length_basis := by
    rw [length_rows_pivot, ← h.length_basis]
    exact List.length_set
  basis_lt := by
    rw [h.numColumns_pivot hr]
    intro c hm
    rcases List.mem_or_eq_of_mem_set hm with hm | rfl
    · exact h.basis_lt c hm
    · exact ⟨col, hc, rfl⟩

end WellShaped

theorem unitVec_apply (hp : (t.rowAt row).vec col ≠ 0) : t.unitVec row col col = 1 := by
  simp [unitVec, inv_mul_cancel₀ hp]

/-- **A pivot on a nonzero entry keeps a tableau canonical.** -/
theorem Canonical.pivot (h : t.Canonical) (hr : row < t.rows.length) (hc : col < t.numColumns)
    (hp : (t.rowAt row).vec col ≠ 0) : (t.pivot row col).Canonical where
  toWellShaped := h.toWellShaped.pivot hr hc
  unit := by
    intro i hi k hk
    rw [length_rows_pivot] at hi hk
    rw [h.basicCol_pivot hr, h.vec_rowAt_pivot hr hc hk]
    by_cases hir : i = row
    · subst hir
      rw [if_pos rfl]
      split
      · exact unitVec_apply hp
      · simp [unitVec_apply hp]
    · rw [if_neg hir]
      -- The pivot row is zero in the columns that stay basic.
      have hz : t.unitVec row col (t.basicCol i) = 0 := by
        simp [unitVec, h.unit i hi row (by omega), Ne.symm hir]
      split
      · rename_i hkr
        rw [hz, if_neg (by omega)]
      · simp [hz, h.unit i hi k hk]

/-! ## Equations -/

/-- The space spanned by the constraint rows. -/
def rowSpace (t : Tableau Rat) : Submodule Rat (Nat → Rat) :=
  Submodule.span Rat {w | ∃ r ∈ t.rows, r.vec = w}

theorem vec_mem_rowSpace (hi : i < t.rows.length) : (t.rowAt i).vec ∈ t.rowSpace :=
  Submodule.subset_span ⟨_, by rw [rowAt_of_lt hi]; exact List.getElem_mem hi, rfl⟩

theorem rowSpace_le {W : Submodule Rat (Nat → Rat)}
    (h : ∀ i < t.rows.length, (t.rowAt i).vec ∈ W) : t.rowSpace ≤ W := by
  refine Submodule.span_le.mpr ?_
  rintro w ⟨r, hr, rfl⟩
  exact forall_mem_rows (P := fun r => r.vec ∈ W) |>.mpr h r hr

/-- A linear map that is zero on every constraint row is zero on all their combinations. -/
theorem map_eq_zero {f : (Nat → Rat) →ₗ[Rat] Rat} (h : ∀ r ∈ t.rows, f r.vec = 0)
    {w : Nat → Rat} (hw : w ∈ t.rowSpace) : f w = 0 := by
  have hle : t.rowSpace ≤ LinearMap.ker f := rowSpace_le fun i hi => by
    rw [LinearMap.mem_ker, rowAt_of_lt hi]
    exact h _ (List.getElem_mem hi)
  exact LinearMap.mem_ker.mp (hle hw)

/-- A vector of the row space is a combination of the rows. -/
theorem exists_sum_of_mem_rowSpace {w : Nat → Rat} (h : w ∈ t.rowSpace) :
    ∃ y : Nat → Rat, w = ∑ i ∈ Finset.range t.rows.length, y i • (t.rowAt i).vec := by
  let combine : (Nat → Rat) →ₗ[Rat] (Nat → Rat) :=
    ∑ i ∈ Finset.range t.rows.length, (LinearMap.proj i).smulRight (t.rowAt i).vec
  have happly : ∀ y, combine y = ∑ i ∈ Finset.range t.rows.length, y i • (t.rowAt i).vec :=
    fun y => by simp [combine]
  have hle : t.rowSpace ≤ LinearMap.range combine := rowSpace_le fun k hk => by
    refine ⟨Pi.single k 1, ?_⟩
    rw [happly, Finset.sum_eq_single_of_mem k (Finset.mem_range.mpr hk)]
    · rw [Pi.single_eq_same, one_smul]
    · intro i _ hik
      rw [Pi.single_eq_of_ne hik, zero_smul]
  obtain ⟨y, rfl⟩ := hle h
  exact ⟨y, happly y⟩

theorem unitVec_mem_rowSpace (hr : row < t.rows.length) : t.unitVec row col ∈ t.rowSpace :=
  Submodule.smul_mem _ _ (vec_mem_rowSpace hr)

theorem WellShaped.rowSpace_pivot (h : t.WellShaped) (hr : row < t.rows.length)
    (hc : col < t.numColumns) (hp : (t.rowAt row).vec col ≠ 0) :
    (t.pivot row col).rowSpace = t.rowSpace := by
  apply le_antisymm
  · apply rowSpace_le
    intro k hk
    rw [length_rows_pivot] at hk
    rw [h.vec_rowAt_pivot hr hc (by omega)]
    split
    · exact unitVec_mem_rowSpace hr
    · exact Submodule.sub_mem _ (vec_mem_rowSpace hk)
        (Submodule.smul_mem _ _ (unitVec_mem_rowSpace hr))
  -- Every old row is a combination of its new form and the new pivot row.
  · have hu : t.unitVec row col ∈ (t.pivot row col).rowSpace := by
      have hm := vec_mem_rowSpace (t := t.pivot row col) (i := row) (by rwa [length_rows_pivot])
      rwa [h.vec_rowAt_pivot hr hc (by omega), if_pos rfl] at hm
    apply rowSpace_le
    intro k hk
    by_cases hkr : k = row
    · subst hkr
      have he : (t.rowAt k).vec = (t.rowAt k).vec col • t.unitVec k col := by
        rw [unitVec, smul_smul, mul_inv_cancel₀ hp, one_smul]
      rw [he]
      exact Submodule.smul_mem _ _ hu
    · have hm := vec_mem_rowSpace (t := t.pivot row col) (i := k) (by rwa [length_rows_pivot])
      rw [h.vec_rowAt_pivot hr hc (by omega), if_neg hkr] at hm
      have hs := Submodule.add_mem _ hm (Submodule.smul_mem _ ((t.rowAt k).vec col) hu)
      rwa [sub_add_cancel] at hs

theorem WellShaped.objective_pivot (h : t.WellShaped) (hr : row < t.rows.length)
    (hc : col < t.numColumns) :
    (t.pivot row col).objective.vec =
      t.objective.vec - t.objective.vec col • t.unitVec row col := by
  have he := h.vec_rowAt_pivot hr hc (Nat.le_refl _)
  rwa [if_neg (by omega), rowAt_length, rowAt_length_pivot] at he

/-- The second tableau stands for the same equations as the first: it has the same columns, the
same number of rows and the same row space, its objective row differs by a vector of that space,
and nothing but rows and basis is changed. -/
structure SameEquations (t t' : Tableau Rat) : Prop where
  numColumns : t'.numColumns = t.numColumns
  length_rows : t'.rows.length = t.rows.length
  rowSpace : t'.rowSpace = t.rowSpace
  objective : t'.objective.vec - t.objective.vec ∈ t.rowSpace
  frame : t' = { t with rows := t'.rows, objective := t'.objective, basis := t'.basis }

theorem SameEquations.refl (t : Tableau Rat) : SameEquations t t where
  numColumns := rfl
  length_rows := rfl
  rowSpace := rfl
  objective := by simp
  frame := rfl

theorem SameEquations.trans {t'' : Tableau Rat} (h : SameEquations t t')
    (h' : SameEquations t' t'') : SameEquations t t'' where
  numColumns := h'.numColumns.trans h.numColumns
  length_rows := h'.length_rows.trans h.length_rows
  rowSpace := h'.rowSpace.trans h.rowSpace
  objective := by
    have hs := Submodule.add_mem _ (h.rowSpace ▸ h'.objective) h.objective
    rwa [sub_add_sub_cancel] at hs
  frame := by
    rw [h'.frame, h.frame]

/-- **A pivot keeps the equations.** -/
theorem WellShaped.sameEquations_pivot (h : t.WellShaped) (hr : row < t.rows.length)
    (hc : col < t.numColumns) (hp : (t.rowAt row).vec col ≠ 0) :
    SameEquations t (t.pivot row col) where
  numColumns := h.numColumns_pivot hr
  length_rows := length_rows_pivot
  rowSpace := h.rowSpace_pivot hr hc hp
  objective := by
    rw [h.objective_pivot hr hc, sub_sub_cancel_left]
    exact Submodule.neg_mem _ (Submodule.smul_mem _ _ (unitVec_mem_rowSpace hr))
  frame := rfl

/-- A point with a value for every column and an objective value solve the equations of a
tableau. -/
def Solves (t : Tableau Rat) (v : Nat → Rat) (z : Rat) : Prop :=
  (∀ r ∈ t.rows, r.lhs v = r.rhs) ∧ z + t.objective.lhs v = t.objective.rhs

/-- A point satisfies the rows when it satisfies every vector of the row space. -/
theorem WellShaped.rows_hold_iff (h : t.WellShaped) {v : Nat → Rat} :
    (∀ r ∈ t.rows, r.lhs v = r.rhs) ↔ ∀ w ∈ t.rowSpace, Row.excess t.numColumns v w = 0 := by
  constructor
  · intro hs w hw
    exact map_eq_zero (fun r hr => (Row.holds_iff (h.width_eq r hr) v).mp (hs r hr)) hw
  · intro hs r hr
    exact (Row.holds_iff (h.width_eq r hr) v).mpr (hs _ (Submodule.subset_span ⟨r, hr, rfl⟩))

theorem WellShaped.solves_iff (h : t.WellShaped) {v : Nat → Rat} {z : Rat} :
    t.Solves v z ↔ (∀ w ∈ t.rowSpace, Row.excess t.numColumns v w = 0) ∧
      Row.excess t.numColumns v t.objective.vec = -z := by
  refine and_congr h.rows_hold_iff ?_
  rw [Row.excess_vec (n := t.numColumns) rfl]
  constructor <;> intro hz <;> linarith

/-- **Tableaux of the same equations have the same solutions.** -/
theorem SameEquations.solves_iff (h : SameEquations t t') (ht : t.WellShaped)
    (ht' : t'.WellShaped) {v : Nat → Rat} {z : Rat} : t'.Solves v z ↔ t.Solves v z := by
  rw [ht.solves_iff, ht'.solves_iff, h.rowSpace, h.numColumns]
  refine and_congr_right fun hrows => ?_
  have hd := hrows _ h.objective
  rw [map_sub, sub_eq_zero] at hd
  rw [hd]

namespace Canonical

/-- A combination of the rows of a canonical tableau shows its multipliers in the basic columns. -/
theorem sum_smul_apply (h : t.Canonical) (y : Nat → Rat) (hi : i < t.rows.length) :
    (∑ k ∈ Finset.range t.rows.length, y k • (t.rowAt k).vec) (t.basicCol i) = y i := by
  rw [Finset.sum_apply, Finset.sum_eq_single_of_mem i (Finset.mem_range.mpr hi)]
  · rw [Pi.smul_apply, h.unit i hi i hi.le, if_pos rfl, smul_eq_mul, mul_one]
  · intro k hk hki
    rw [Pi.smul_apply, h.unit i hi k (Finset.mem_range.mp hk).le, if_neg hki, smul_zero]

/-- **A combination of rows that is zero in the basic columns is zero.** -/
theorem eq_zero_of_mem_rowSpace (h : t.Canonical) {w : Nat → Rat} (hw : w ∈ t.rowSpace)
    (h0 : ∀ i < t.rows.length, w (t.basicCol i) = 0) : w = 0 := by
  obtain ⟨y, rfl⟩ := exists_sum_of_mem_rowSpace hw
  refine Finset.sum_eq_zero fun i hi => ?_
  have hi' := Finset.mem_range.mp hi
  rw [← h.sum_smul_apply y hi', h0 i hi', zero_smul]

/-- Basic columns have no reduced cost. -/
theorem objective_basicCol (h : t.Canonical) (hi : i < t.rows.length) :
    t.objective.vec (t.basicCol i) = 0 := by
  have hu := h.unit i hi t.rows.length (le_refl _)
  rwa [rowAt_length, if_neg (by omega)] at hu

end Canonical

/-! ## The basic solution -/

namespace WellShaped

/-- A value is the right side of a row in which the column is basic, or zero without one. -/
theorem valueOf_cases (h : t.WellShaped) (j : Nat) :
    (∃ i < t.rows.length, t.basicCol i = j ∧ t.valueOf j = (t.rowAt i).rhs) ∨
      ((∀ i < t.rows.length, t.basicCol i ≠ j) ∧ t.valueOf j = 0) := by
  rw [valueOf]
  cases hf : (t.basis.zip t.rows).find? (·.1 == (j : Int)) with
  | some cr =>
    left
    obtain ⟨i, hi, he⟩ := List.getElem_of_mem (List.mem_of_find?_eq_some hf)
    have hj := List.find?_some hf
    rw [List.length_zip, h.length_basis, Nat.min_self] at hi
    rw [List.getElem_zip, (h.basis_eq (h.length_basis ▸ hi)).1] at he
    subst he
    refine ⟨i, hi, by simpa using hj, ?_⟩
    rw [rowAt_of_lt hi]
  | none =>
    right
    refine ⟨fun i hi hj => ?_, rfl⟩
    have hz : i < (t.basis.zip t.rows).length := by
      rw [List.length_zip, h.length_basis, Nat.min_self]; exact hi
    have hn := List.find?_eq_none.mp hf _ (List.getElem_mem hz)
    rw [List.getElem_zip, (h.basis_eq (h.length_basis ▸ hi)).1, hj] at hn
    simp at hn

theorem valueOf_nonneg (h : t.WellShaped) (hf : ∀ r ∈ t.rows, 0 ≤ r.rhs) (j : Nat) :
    0 ≤ t.valueOf j := by
  rcases h.valueOf_cases j with ⟨i, hi, -, he⟩ | ⟨-, he⟩
  · rw [he]
    exact forall_mem_rows.mp hf i hi
  · rw [he]

end WellShaped

namespace Canonical

theorem basicCol_inj (h : t.Canonical) (hi : i < t.rows.length) (hk : k < t.rows.length)
    (he : t.basicCol i = t.basicCol k) : i = k := by
  by_contra hne
  have h1 := h.unit i hi i (by omega)
  rw [he, h.unit k hk i (by omega), if_neg hne, if_pos rfl] at h1
  exact zero_ne_one h1

theorem valueOf_basicCol (h : t.Canonical) (hi : i < t.rows.length) :
    t.valueOf (t.basicCol i) = (t.rowAt i).rhs := by
  rcases h.valueOf_cases (t.basicCol i) with ⟨k, hk, he, hv⟩ | ⟨hn, -⟩
  · rw [hv, h.basicCol_inj hk hi he]
  · exact absurd rfl (hn i hi)

/-- A sum over all columns against a point that is zero off the basis is a sum over the rows. -/
theorem sum_eq_sum_basic (h : t.Canonical) {u : Nat → Rat}
    (hu : ∀ j, (∀ i < t.rows.length, t.basicCol i ≠ j) → u j = 0) (g : Nat → Rat) :
    ∑ j ∈ Finset.range t.numColumns, g j * u j =
      ∑ i ∈ Finset.range t.rows.length, g (t.basicCol i) * u (t.basicCol i) := by
  have hinj : Set.InjOn t.basicCol (Finset.range t.rows.length) := fun i hi k hk he =>
    h.basicCol_inj (Finset.mem_range.mp hi) (Finset.mem_range.mp hk) he
  rw [← Finset.sum_image (f := fun j => g j * u j) hinj]
  symm
  apply Finset.sum_subset
  · intro j hj
    obtain ⟨i, hi, rfl⟩ := Finset.mem_image.mp hj
    exact Finset.mem_range.mpr (h.basicCol_lt (Finset.mem_range.mp hi))
  · intro j _ hj
    rw [hu j fun i hi he => hj (Finset.mem_image.mpr ⟨i, Finset.mem_range.mpr hi, he⟩), mul_zero]

/-- Each row of a canonical tableau reads a point that is zero off the basis at its own basic
column, and the objective row does not read it at all. -/
theorem lhs_eq (h : t.Canonical) {u : Nat → Rat}
    (hu : ∀ j, (∀ i < t.rows.length, t.basicCol i ≠ j) → u j = 0) (hk : k ≤ t.rows.length) :
    (t.rowAt k).lhs u = if k < t.rows.length then u (t.basicCol k) else 0 := by
  rw [Row.lhs, h.width_rowAt, h.sum_eq_sum_basic hu]
  have hs : ∀ i ∈ Finset.range t.rows.length,
      (t.rowAt k).vec (t.basicCol i) * u (t.basicCol i) =
        if k = i then u (t.basicCol i) else 0 := fun i hi => by
    rw [h.unit i (Finset.mem_range.mp hi) k hk]
    split <;> simp
  rw [Finset.sum_congr rfl hs, Finset.sum_ite_eq]
  simp

theorem valueOf_eq_zero (h : t.Canonical) (j : Nat)
    (hj : ∀ i < t.rows.length, t.basicCol i ≠ j) : t.valueOf j = 0 := by
  rcases h.valueOf_cases j with ⟨i, hi, he, -⟩ | ⟨-, hv⟩
  · exact absurd he (hj i hi)
  · exact hv

/-- **The values read off a canonical tableau solve its equations.** -/
theorem solves_valueOf (h : t.Canonical) : t.Solves t.valueOf t.objective.rhs := by
  refine ⟨forall_mem_rows.mpr fun i hi => ?_, ?_⟩
  · rw [h.lhs_eq h.valueOf_eq_zero (by omega), if_pos hi, h.valueOf_basicCol hi]
  · have ho := h.lhs_eq h.valueOf_eq_zero (Nat.le_refl _)
    rw [rowAt_length, if_neg (by omega)] at ho
    rw [ho, add_zero]

/-- **Nonbasic values determine basic ones.** Points that satisfy the rows and agree off the basis
are the same. -/
theorem eq_of_rows (h : t.Canonical) {u v : Nat → Rat} (hu : ∀ r ∈ t.rows, r.lhs u = r.rhs)
    (hv : ∀ r ∈ t.rows, r.lhs v = r.rhs)
    (huv : ∀ j, (∀ i < t.rows.length, t.basicCol i ≠ j) → u j = v j) : u = v := by
  have hoff : ∀ j, (∀ i < t.rows.length, t.basicCol i ≠ j) → (u - v) j = 0 := fun j hj => by
    rw [Pi.sub_apply, huv j hj, sub_self]
  funext j
  by_cases hj : ∃ i < t.rows.length, t.basicCol i = j
  · obtain ⟨i, hi, rfl⟩ := hj
    have he := h.lhs_eq hoff (Nat.le_of_lt hi)
    rw [if_pos hi, Row.lhs_sub, forall_mem_rows.mp hu i hi, forall_mem_rows.mp hv i hi,
      sub_self] at he
    exact sub_eq_zero.mp he.symm
  · push Not at hj
    exact huv j hj

end Canonical

end Tableau

end TableauSimplex
