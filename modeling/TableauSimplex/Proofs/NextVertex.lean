import TableauSimplex.Proofs.Records
import TableauSimplex.Proofs.Tableau.Basis

/-!
# The next vertex

A pivot on a nonbasic column moves the basic point along the ray of the column, as far as the row of
the pivot allows (`Canonical.valueOf_pivot`). The objective value changes by the reduced cost for
each unit of the way (`WellShaped.rhs_objective_pivot`).

The look for another optimum comes to one such pivot, on the first nonbasic column whose reduced
cost is within a tolerance (`WellShaped.otherOptimum_eq`, `NextPivot`).
-/

namespace TableauSimplex

namespace Tableau

variable {t : Tableau Rat} {row col : Nat} {tol ratio : Rat}

/-! ## One pivot -/

/-- **A pivot moves the basic point along a ray.** -/
theorem Canonical.valueOf_pivot (h : t.Canonical) (hr : row < t.rows.length)
    (hc : col < t.numColumns) (hp : (t.rowAt row).vec col ≠ 0)
    (hcol : ∀ i < t.rows.length, t.basicCol i ≠ col) :
    (t.pivot row col).valueOf = t.valueOf + t.stepLength row col • t.ray col := by
  have hnext := h.pivot hr hc hp
  have hmoved := h.solves_valueOf.add_smul (h.drift_ray hc) (t.stepLength row col)
  rw [← (h.sameEquations_pivot hr hc hp).solves_iff h.toWellShaped hnext.toWellShaped] at hmoved
  -- Both points solve the new tableau, so it is enough to look off its basis.
  refine hnext.eq_of_rows hnext.solves_valueOf.1 hmoved.1 fun j hj => ?_
  have hbasic : ∀ i < t.rows.length, (if i = row then col else t.basicCol i) ≠ j := fun i hi => by
    rw [← h.basicCol_pivot hr]
    exact hj i (by rwa [length_rows_pivot])
  rw [hnext.valueOf_eq_zero j hj, Pi.add_apply, Pi.smul_apply, smul_eq_mul]
  by_cases hleaves : t.basicCol row = j
  · rw [← hleaves, h.valueOf_basicCol hr, h.ray_basicCol hcol hr, stepLength, mul_neg,
      div_mul_cancel₀ _ hp, add_neg_cancel]
  · have hold : ∀ i < t.rows.length, t.basicCol i ≠ j := fun i hi => by
      by_cases hir : i = row
      · rwa [hir]
      · have hi' := hbasic i hi
        rwa [if_neg hir] at hi'
    have hne : j ≠ col := fun he => hbasic row hr (by rw [if_pos rfl, he])
    rw [h.valueOf_eq_zero j hold, ray_of_nonbasic hold, Pi.single_eq_of_ne hne, mul_zero, add_zero]

/-- The basic values change exactly when the pivot goes some way. -/
theorem Canonical.valueOf_pivot_ne_iff (h : t.Canonical) (hr : row < t.rows.length)
    (hc : col < t.numColumns) (hp : (t.rowAt row).vec col ≠ 0)
    (hcol : ∀ i < t.rows.length, t.basicCol i ≠ col) :
    (t.pivot row col).valueOf ≠ t.valueOf ↔ t.stepLength row col ≠ 0 := by
  rw [h.valueOf_pivot hr hc hp hcol]
  refine not_congr ⟨fun heq => ?_, fun h0 => by rw [h0, zero_smul, add_zero]⟩
  have hval := congrFun heq col
  rwa [Pi.add_apply, Pi.smul_apply, ray_of_nonbasic hcol, Pi.single_eq_same, smul_eq_mul, mul_one,
    add_eq_left] at hval

namespace WellShaped

/-! ## Reading values that may fail -/

/-- In a well-shaped tableau every value can be read. -/
theorem tryValueOf_eq (h : t.WellShaped) (col : Nat) :
    t.tryValueOf (col : Int) = .ok (t.valueOf col) := by
  have hlen : (t.basis.zip t.rows).length = t.basis.length := by
    rw [List.length_zip, h.length_basis, Nat.min_self]
  rw [tryValueOf, valueOf]
  cases hrow : t.basis.idxOf? (col : Int) with
  | none =>
    have hnone : (t.basis.zip t.rows).find? (·.1 == (col : Int)) = none := by
      rw [List.find?_eq_none]
      rintro ⟨c, r⟩ hm heq
      exact List.idxOf?_eq_none_iff.mp hrow (beq_iff_eq.mp heq ▸ (List.of_mem_zip hm).1)
    rw [hnone]
  | some row =>
    obtain ⟨hlt, heq, hfirst⟩ := List.idxOf?_eq_some_iff.mp hrow
    have hr : row < t.rows.length := h.length_basis ▸ hlt
    have hsome : (t.basis.zip t.rows).find? (·.1 == (col : Int)) =
        some (t.basis[row], t.rows[row]) := by
      rw [List.find?_eq_some_iff_getElem]
      refine ⟨by simpa using heq, row, by rwa [hlen], List.getElem_zip, fun k hk => ?_⟩
      rw [List.getElem_zip]
      simpa using hfirst k hk
    rw [hsome]
    simp only [tryRhs]
    rw [if_pos hr.le, rowAt_of_lt hr]

theorem tryValues_eq (h : t.WellShaped) : t.tryValues = .ok t.values :=
  mapM_eq_ok fun j _ => h.tryValueOf_eq j

/-- The values after a pivot on a column of the tableau, if some row admits it. -/
theorem valuesAfter_eq (h : t.WellShaped) (hc : col < t.numColumns) (hr : 0 ≤ ratio) :
    t.valuesAfter (col : Int) ratio =
      .ok ((t.leavingRow col ratio).map fun row => (t.pivot row col).values) := by
  have hplace : t.columnAt? (col : Int) = some col := by
    rw [columnAt?, place?_natCast, if_pos (by omega)]
  have hrow : t.tryLeavingRow (col : Int) ratio = .ok (t.leavingRow col ratio) := by
    rw [tryLeavingRow, hplace]
  have hl := h.leavingRow_spec hc ratio
  rw [valuesAfter, hrow]
  cases hleaving : t.leavingRow col ratio with
  | none =>
    obtain ⟨name, -, hname⟩ := h.labelled.exists_headerAt hc
    simp only [bind, Except.bind, hname]
    rfl
  | some row =>
    rw [hleaving] at hl
    have hne : (t.rowAt row).entry col ≠ 0 := by
      rw [h.labelled.entry_eq_vec hc]
      exact (hr.trans_lt hl.holds).ne'
    simp only [bind, Except.bind, h.labelled.tryPivot_eq hl.lt hc, if_neg hne,
      (h.pivot hl.lt hc).tryValues_eq]
    rfl

/-! ## Another optimum -/

/-- The candidates for another optimum. -/
theorem mem_zeroCostColumns (h : t.WellShaped) {j : Nat} :
    j ∈ t.zeroCostColumns tol ↔
      j < t.numColumns ∧ (∀ i < t.rows.length, t.basicCol i ≠ j) ∧ |t.objective.vec j| < tol := by
  have hbasis : t.basis.contains (j : Int) = false ↔ ∀ i < t.rows.length, t.basicCol i ≠ j := by
    have hall := h.forall_mem_basis (P := fun c => c ≠ (j : Int))
    rw [← not_mem_basicCols, ← Bool.not_eq_true, List.contains_iff_mem]
    constructor
    · intro hm hj
      exact hall.mp (fun c hc he => hm (he ▸ hc)) j hj rfl
    · intro hj hm
      exact hall.mpr (fun k hk he => hj (Int.ofNat.inj he ▸ hk)) _ hm rfl
  rw [zeroCostColumns, List.mem_filter, List.mem_range, Bool.and_eq_true, Bool.not_eq_true', hbasis,
    decide_eq_true_iff, Scalar.abs_eq]
  refine and_congr_right fun hj => ?_
  rw [Row.entry_eq_vec (Nat.le_of_lt hj)]

/-- **The look for another optimum** always comes to an end. -/
theorem otherOptimum_eq (h : t.WellShaped) (tol : Rat) (hr : 0 ≤ ratio) :
    t.otherOptimum tol ratio = .ok (!(t.zeroCostColumns tol).isEmpty,
      (t.zeroCostColumns tol).head?.bind fun col =>
        (t.leavingRow col ratio).map fun row => (t.pivot row col).values) := by
  rw [otherOptimum]
  cases hzero : t.zeroCostColumns tol with
  | nil => rfl
  | cons col rest =>
    have hmem : col ∈ t.zeroCostColumns tol := by rw [hzero]; exact List.mem_cons_self
    simp only [h.valuesAfter_eq (h.mem_zeroCostColumns.mp hmem).1 hr]
    rfl

end WellShaped

/-- The pivot by which another optimum is looked for: on the first column whose reduced cost is
within the tolerance, in the row that bounds its growth first. -/
structure NextPivot (t : Tableau Rat) (tol ratio : Rat) (row col : Nat) : Prop where
  enters : (t.zeroCostColumns tol).head? = some col
  leaves : t.leavingRow col ratio = some row

namespace NextPivot

variable (h : t.NextPivot tol ratio row col) (ht : t.WellShaped)

include h ht

theorem column_spec : col < t.numColumns ∧ (∀ i < t.rows.length, t.basicCol i ≠ col) ∧
    |t.objective.vec col| < tol :=
  ht.mem_zeroCostColumns.mp (List.mem_of_mem_head? h.enters)

theorem row_spec : row < t.rows.length ∧ ratio < (t.rowAt row).vec col := by
  have hl := ht.leavingRow_spec (h.column_spec ht).1 ratio
  rw [h.leaves] at hl
  exact ⟨hl.lt, hl.holds⟩

end NextPivot

/-- The values reported beside an optimum are those after a pivot, and there is a sign of other
optima. -/
theorem WellShaped.exists_nextPivot (h : t.WellShaped) (hr : 0 ≤ ratio) {multiple : Bool}
    {x : List Rat} (hfound : t.otherOptimum tol ratio = .ok (multiple, some x)) :
    multiple = true ∧
      ∃ row col, t.NextPivot tol ratio row col ∧ x = (t.pivot row col).values := by
  rw [h.otherOptimum_eq tol hr, Except.ok.injEq, Prod.mk.injEq] at hfound
  obtain ⟨rfl, hfound⟩ := hfound
  obtain ⟨col, hcol, hfound⟩ := Option.bind_eq_some_iff.mp hfound
  obtain ⟨row, hrow, rfl⟩ := Option.map_eq_some_iff.mp hfound
  refine ⟨?_, row, col, ⟨hcol, hrow⟩, rfl⟩
  obtain ⟨rest, hzero⟩ := List.head?_eq_some_iff.mp hcol
  rw [hzero]
  rfl

/-- Without a sign of other optima there are no candidates. -/
theorem zeroCostColumns_eq_nil {found : Option (List Rat)}
    (h : t.otherOptimum tol ratio = .ok (false, found)) : t.zeroCostColumns tol = [] := by
  rw [otherOptimum] at h
  cases hzero : t.zeroCostColumns tol with
  | nil => rfl
  | cons col rest =>
    rw [hzero] at h
    cases hv : t.valuesAfter col ratio with
    | error e => simp only [hv] at h; cases h
    | ok v => simp only [hv] at h; cases h

end Tableau

end TableauSimplex
