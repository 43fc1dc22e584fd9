import TableauSimplex.Proofs.Tableau.Choice

/-!
# Rectangular tableaux

The choice of a pivot and its row operations read the numbers of a tableau alone. So what they make
of the rows of a well-shaped tableau holds wherever every row has an entry for every column,
whatever the names and the basis are: `renamed` puts others in their place.

* `Rectangular.leavingRow_eq_none_iff`, `Rectangular.firstLeast`: the ratio test.
* `tryPivot_eq`: what an attempt to pivot comes to.
* `Rectangular.rhs_pivot`, `Rectangular.rhs_objective_pivot`: what a pivot on the leaving row makes
  of the right sides and of the objective cell.
-/

namespace TableauSimplex.Tableau

variable {t : Tableau Rat} {row col i : Nat} {tol : Rat}

/-- Within the tableau a pivot fails for a zero entry or for a row without a place in the basis. In
the second case the row operations are made. -/
theorem tryPivot_eq (hr : row < t.rows.length) (hc : col < t.numColumns) :
    t.tryPivot row (col : Int) =
      if (t.rowAt row).entry col = 0 then (t, some .zeroPivot)
      else (t.pivot row col, if row < t.basis.length then none else some .outOfRange) := by
  rw [tryPivot, columnAt?, place?_natCast, if_pos (by omega)]
  simp only
  rw [if_neg (by omega)]
  by_cases h0 : (t.rowAt row).entry col = 0
  · rw [if_pos (beq_iff_eq.mpr h0), if_pos h0]
  · rw [if_neg (by simpa using h0), if_neg h0]
    rfl

/-- Every row has an entry for every column. -/
def Rectangular (t : Tableau Rat) : Prop := ∀ r ∈ t.rows, r.width = t.numColumns

instance : Decidable t.Rectangular :=
  inferInstanceAs (Decidable (∀ r ∈ t.rows, r.width = t.numColumns))

/-- The tableau with made-up names and the first column in every place of the basis. -/
def renamed (t : Tableau Rat) : Tableau Rat :=
  { t with
    headers := List.replicate t.numColumns (.text "")
    basis := List.replicate t.rows.length 0 }

namespace Rectangular

variable (h : t.Rectangular) (hc : col < t.numColumns)

include h hc

theorem renamed : t.renamed.WellShaped where
  width_eq := h
  length_headers := List.length_replicate
  length_basis := List.length_replicate
  basis_lt _ hm := ⟨0, Nat.zero_lt_of_lt hc, List.eq_of_mem_replicate hm⟩

theorem entry_eq_vec : (t.rowAt i).entry col = (t.rowAt i).vec col := by
  have hw : (t.rowAt i).width = t.numColumns := (h.renamed hc).width_rowAt i
  exact Row.entry_eq_vec (by omega)

/-! ## The ratio test -/

/-- **No row leaves** exactly when no entry of the column is above the tolerance. -/
theorem leavingRow_eq_none_iff :
    t.leavingRow col tol = none ↔ ∀ q ∈ t.rows, q.entry col ≤ tol := by
  have hs := (h.renamed hc).leavingRow_spec hc tol
  rw [show t.renamed.leavingRow col tol = t.leavingRow col tol from rfl] at hs
  rw [forall_mem_rows (P := fun q => q.entry col ≤ tol)]
  simp only [h.entry_eq_vec hc]
  cases hl : t.leavingRow col tol with
  | none =>
    rw [hl] at hs
    exact iff_of_true rfl fun i hi => not_lt.mp (hs i hi)
  | some row =>
    rw [hl] at hs
    exact iff_of_false nofun fun hle => absurd hs.holds (not_lt.mpr (hle row hs.lt))

/-- **The row that leaves** is the first one of the least ratio. -/
theorem firstLeast (hl : t.leavingRow col tol = some row) :
    FirstLeast (fun k => tol < (t.rowAt k).entry col)
      (fun k => (t.rowAt k).rhs / (t.rowAt k).entry col) t.rows.length row := by
  have hs := (h.renamed hc).leavingRow_spec hc tol
  rw [show t.renamed.leavingRow col tol = some row from hl] at hs
  simp only [h.entry_eq_vec hc]
  exact hs

/-! ## The pivot -/

theorem numColumns_pivot (hr : row < t.rows.length) :
    (t.pivot row col).numColumns = t.numColumns :=
  (h.renamed hc).numColumns_pivot hr

theorem pivot (hr : row < t.rows.length) : (t.pivot row col).Rectangular :=
  ((h.renamed hc).pivot hr hc).width_eq

/-- The objective cell grows by the negated reduced cost for each unit of the ratio. -/
theorem rhs_objective_pivot (hr : row < t.rows.length) :
    (t.pivot row col).objective.rhs = t.objective.rhs -
      t.objective.entry col * ((t.rowAt row).rhs / (t.rowAt row).entry col) := by
  have hobjective : t.objective.entry col = t.objective.vec col := Row.entry_eq_vec hc.le
  rw [hobjective, h.entry_eq_vec hc]
  exact (h.renamed hc).rhs_objective_pivot hr hc

variable (htol : 0 ≤ tol) (hl : t.leavingRow col tol = some row)

include htol hl

/-- An attempt to pivot on the leaving row is not refused. -/
theorem tryPivot_leavingRow : t.tryPivot row (col : Int) =
    (t.pivot row col, if row < t.basis.length then none else some .outOfRange) := by
  have hrow := h.firstLeast hc hl
  rw [tryPivot_eq hrow.lt hc, if_neg (htol.trans_lt hrow.holds).ne']

variable (hf : ∀ q ∈ t.rows, 0 ≤ q.rhs)

include hf

theorem ratio_nonneg : 0 ≤ (t.rowAt row).rhs / (t.rowAt row).entry col := by
  have hrow := h.firstLeast hc hl
  exact div_nonneg (forall_mem_rows.mp hf row hrow.lt) (htol.trans hrow.holds.le)

/-- **The right sides after a pivot on the leaving row.** -/
theorem rhs_pivot (hi : i < t.rows.length) :
    -tol * ((t.rowAt row).rhs / (t.rowAt row).entry col) ≤ ((t.pivot row col).rowAt i).rhs ∧
      ((t.rowAt i).entry col ≤ 0 ∨ tol < (t.rowAt i).entry col →
        0 ≤ ((t.pivot row col).rowAt i).rhs) := by
  simp only [h.entry_eq_vec hc]
  exact (h.renamed hc).rhs_pivot_of_leavingRow hc htol hl hf hi

end Rectangular

end TableauSimplex.Tableau
