import TableauSimplex.Proofs.Tableau.Canonical

/-!
# The choice of a pivot

The entering column has the least reduced cost, the leaving row the least ratio among the entries
above the tolerance; of equals the first is taken in both cases (`FirstLeast`).

* `enteringColumn_spec`: what each outcome of the choice of a column says about the objective row.
* `leavingRow_spec`: what each outcome of the choice of a row says about the column.
* `WellShaped.rhs_pivot_of_leavingRow`: how far a pivot on the chosen row can lower the right sides.
  With tolerance zero they stay nonnegative (`WellShaped.rhs_pivot_nonneg`).
-/

namespace TableauSimplex

/-- Among the numbers below `n` that satisfy `P`, the number `i` is the first one at which `g` is
least. -/
structure FirstLeast (P : Nat → Prop) (g : Nat → Rat) (n i : Nat) : Prop where
  lt : i < n
  holds : P i
  le : ∀ k < n, P k → g i ≤ g k
  first : ∀ k < i, P k → g i < g k

namespace FirstLeast

variable {P : Nat → Prop} {g : Nat → Rat} {n i : Nat}

theorem step_same (h : FirstLeast P g n i) (hn : P n → g i ≤ g n) : FirstLeast P g (n + 1) i where
  lt := Nat.lt_succ_of_lt h.lt
  holds := h.holds
  le k hk hP := by
    rcases Nat.lt_succ_iff_lt_or_eq.mp hk with hk | rfl
    · exact h.le k hk hP
    · exact hn hP
  first := h.first

theorem step_new (h : FirstLeast P g n i) (hP : P n) (hn : g n < g i) :
    FirstLeast P g (n + 1) n where
  lt := Nat.lt_succ_self n
  holds := hP
  le k hk hPk := by
    rcases Nat.lt_succ_iff_lt_or_eq.mp hk with hk | rfl
    · exact le_of_lt (lt_of_lt_of_le hn (h.le k hk hPk))
    · exact le_refl _
  first k hk hPk := lt_of_lt_of_le hn (h.le k hk hPk)

theorem first_one (hn : ∀ k < n, ¬P k) (hP : P n) : FirstLeast P g (n + 1) n where
  lt := Nat.lt_succ_self n
  holds := hP
  le k hk hPk := by
    rcases Nat.lt_succ_iff_lt_or_eq.mp hk with hk | rfl
    · exact absurd hPk (hn k hk)
    · exact le_refl _
  first k hk hPk := absurd hPk (hn k hk)

end FirstLeast

/-! ## The least of a list -/

theorem leastPosition_spec (xs : List Rat) :
    match leastPosition xs with
    | none => xs = []
    | some (j, y) => y = xs.getD j 0 ∧ FirstLeast (fun _ => True) (xs.getD · 0) xs.length j := by
  induction xs with
  | nil => rfl
  | cons x rest ih =>
    rw [leastPosition]
    cases hl : leastPosition rest with
    | none =>
      rw [hl] at ih
      subst ih
      refine ⟨rfl, by simp, trivial, fun k hk _ => ?_, fun k hk => absurd hk (Nat.not_lt_zero k)⟩
      simp only [List.length_singleton, Nat.lt_one_iff] at hk
      rw [hk]
    | some jy =>
      obtain ⟨j, y⟩ := jy
      rw [hl] at ih
      obtain ⟨rfl, hj⟩ := ih
      simp only [beq_self_eq_true, Bool.not_true, Bool.or_false, decide_eq_true_eq]
      by_cases hx : x ≤ rest.getD j 0
      · rw [if_pos hx]
        refine ⟨rfl, by simp, trivial, fun k hk _ => ?_, fun k hk => absurd hk (Nat.not_lt_zero k)⟩
        cases k with
        | zero => exact le_refl _
        | succ k => exact le_trans hx (hj.le k (by simpa using hk) trivial)
      · rw [if_neg hx]
        refine ⟨rfl, by simpa using hj.lt, trivial, fun k hk _ => ?_, fun k hk _ => ?_⟩
        · cases k with
          | zero => exact le_of_lt (not_le.mp hx)
          | succ k => exact hj.le k (by simpa using hk) trivial
        · cases k with
          | zero => exact not_le.mp hx
          | succ k => exact hj.first k (by omega) trivial

namespace Tableau

variable {t : Tableau Rat} {row col : Nat} {tol : Rat}

/-- **The entering column.** If there is none, every reduced cost is at least minus the tolerance;
if there is one, its reduced cost is below that and the first of the least ones. -/
theorem enteringColumn_spec (t : Tableau Rat) (tol : Rat) :
    match t.enteringColumn tol with
    | .error e => e = .noColumns ∧ t.numColumns = 0
    | .ok none => ∀ j < t.numColumns, -tol ≤ t.objective.vec j
    | .ok (some j) => t.objective.vec j < -tol ∧
        FirstLeast (fun _ => True) t.objective.vec t.numColumns j := by
  have hv : ∀ j < t.numColumns, t.objective.coefficients.getD j 0 = t.objective.vec j :=
    fun j hj => (Row.vec_of_lt hj).symm
  have hs := leastPosition_spec t.objective.coefficients
  rw [enteringColumn]
  cases hl : leastPosition t.objective.coefficients with
  | none =>
    rw [hl] at hs
    exact ⟨rfl, by simp [numColumns, Row.width, hs]⟩
  | some jy =>
    obtain ⟨j, y⟩ := jy
    rw [hl] at hs
    obtain ⟨rfl, hj⟩ := hs
    have hlt : j < t.numColumns := hj.lt
    simp only [hv j hlt]
    by_cases hneg : t.objective.vec j < -tol
    · rw [if_pos hneg]
      refine ⟨hneg, hlt, trivial, fun k hk _ => ?_, fun k hk _ => ?_⟩
      · have hle := hj.le k hk trivial
        rwa [hv j hlt, hv k hk] at hle
      · have hle := hj.first k hk trivial
        rwa [hv j hlt, hv k (by omega)] at hle
    · rw [if_neg hneg]
      intro k hk
      have hle := hj.le k hk trivial
      rw [hv j hlt, hv k hk] at hle
      exact le_trans (not_lt.mp hneg) hle

/-! ## The ratio test -/

/-- The rows before `n` have been looked at, and `best` is the first one of the least ratio. -/
private def BestBefore (P : Nat → Prop) (g : Nat → Rat) (n : Nat) : Option (Nat × Rat) → Prop
  | none => ∀ k < n, ¬P k
  | some (i, ratio) => ratio = g i ∧ FirstLeast P g n i

private theorem leastRatio_spec (tol : Rat) (pairs : List (Rat × Rat)) {P : Nat → Prop}
    {g : Nat → Rat} (n : Nat) (best : Option (Nat × Rat)) (hb : BestBefore P g n best)
    (hP : ∀ k (hk : k < pairs.length), P (n + k) ↔ tol < pairs[k].1)
    (hg : ∀ k (hk : k < pairs.length), g (n + k) = pairs[k].2 / pairs[k].1) :
    match leastRatio tol n best pairs with
    | none => ∀ k < n + pairs.length, ¬P k
    | some i => FirstLeast P g (n + pairs.length) i := by
  induction pairs generalizing n best with
  | nil =>
    cases best with
    | none => exact hb
    | some ir => exact hb.2
  | cons p rest ih =>
    obtain ⟨entry, rhs⟩ := p
    have hP0 : P n ↔ tol < entry := hP 0 (by simp)
    have hg0 : g n = rhs / entry := hg 0 (by simp)
    have hPr : ∀ k (hk : k < rest.length), P (n + 1 + k) ↔ tol < rest[k].1 := fun k hk => by
      rw [Nat.add_assoc, Nat.add_comm 1]
      exact hP (k + 1) (by simpa using hk)
    have hgr : ∀ k (hk : k < rest.length), g (n + 1 + k) = rest[k].2 / rest[k].1 := fun k hk => by
      rw [Nat.add_assoc, Nat.add_comm 1]
      exact hg (k + 1) (by simpa using hk)
    have hn : n + ((entry, rhs) :: rest).length = n + 1 + rest.length := by
      simp only [List.length_cons]; omega
    rw [leastRatio, hn]
    by_cases he : tol < entry
    · rw [if_pos he]
      apply ih (n + 1) _ _ hPr hgr
      cases best with
      | none => exact ⟨hg0.symm, FirstLeast.first_one hb (hP0.mpr he)⟩
      | some ir =>
        obtain ⟨i, ratio⟩ := ir
        obtain ⟨rfl, hi⟩ := hb
        simp only [decide_eq_true_eq]
        by_cases hlt : rhs / entry < g i
        · rw [if_pos hlt]
          exact ⟨hg0.symm, hi.step_new (hP0.mpr he) (hg0 ▸ hlt)⟩
        · rw [if_neg hlt]
          exact ⟨rfl, hi.step_same fun _ => hg0 ▸ not_lt.mp hlt⟩
    · rw [if_neg he]
      apply ih (n + 1) _ _ hPr hgr
      cases best with
      | none =>
        intro k hk
        rcases Nat.lt_succ_iff_lt_or_eq.mp hk with hk | rfl
        · exact hb k hk
        · exact fun h => he (hP0.mp h)
      | some ir => exact ⟨hb.1, hb.2.step_same fun h => absurd (hP0.mp h) he⟩

/-- **The leaving row.** If there is none, no entry of the column is above the tolerance; if there
is one, it is the first row of least ratio among those with an entry above the tolerance. -/
theorem WellShaped.leavingRow_spec (h : t.WellShaped) (hc : col < t.numColumns) (tol : Rat) :
    match t.leavingRow col tol with
    | none => ∀ i < t.rows.length, ¬tol < (t.rowAt i).vec col
    | some i => FirstLeast (fun k => tol < (t.rowAt k).vec col)
        (fun k => (t.rowAt k).rhs / (t.rowAt k).vec col) t.rows.length i := by
  have hentry : ∀ k (hk : k < t.rows.length),
      t.rows[k].entry col = (t.rowAt k).vec col := fun k hk => by
    rw [rowAt_of_lt hk, Row.entry_eq_vec (by rw [h.width_eq _ (List.getElem_mem hk)]; omega)]
  have hs := leastRatio_spec tol (t.rows.map fun r => (r.entry col, r.rhs))
    (P := fun k => tol < (t.rowAt k).vec col)
    (g := fun k => (t.rowAt k).rhs / (t.rowAt k).vec col) 0 none
    (fun k hk => absurd hk (Nat.not_lt_zero k))
    (fun k hk => by
      rw [List.length_map] at hk
      rw [List.getElem_map, Nat.zero_add, hentry k hk])
    (fun k hk => by
      rw [List.length_map] at hk
      simp only [List.getElem_map, Nat.zero_add, hentry k hk, rowAt_of_lt hk])
  rw [List.length_map, Nat.zero_add] at hs
  exact hs

/-! ## Right sides -/

/-- How far a column grows until the basic variable of a row is zero. -/
def stepLength (t : Tableau Rat) (row col : Nat) : Rat :=
  (t.rowAt row).rhs / (t.rowAt row).vec col

/-- A row operation on the right side of a row. -/
theorem WellShaped.rhs_rowAt_pivot (h : t.WellShaped) (hr : row < t.rows.length)
    (hc : col < t.numColumns) {k : Nat} (hk : k ≤ t.rows.length) :
    ((t.pivot row col).rowAt k).rhs =
      if k = row then t.stepLength row col
      else (t.rowAt k).rhs - (t.rowAt k).vec col * t.stepLength row col := by
  have hv := congrFun (h.vec_rowAt_pivot hr hc hk) t.numColumns
  have hw : ((t.pivot row col).rowAt k).width = t.numColumns := by
    rw [(h.pivot hr hc).width_rowAt, h.numColumns_pivot hr]
  have hrhs : ∀ i, (t.rowAt i).vec t.numColumns = (t.rowAt i).rhs := fun i => by
    rw [← h.width_rowAt i, Row.vec_width]
  rw [← hw, Row.vec_width, hw] at hv
  rw [hv, stepLength]
  split
  · rw [unitVec, Pi.smul_apply, smul_eq_mul, hrhs, div_eq_inv_mul]
  · rw [Pi.sub_apply, Pi.smul_apply, smul_eq_mul, unitVec, Pi.smul_apply, smul_eq_mul, hrhs, hrhs,
      div_eq_inv_mul]

/-- **A pivot on the leaving row** lowers no right side below zero but those of rows whose entry is
positive and within the tolerance. The ratio test passes these rows over, and they fall by no more
than the tolerance times the ratio. -/
theorem WellShaped.rhs_pivot_of_leavingRow (h : t.WellShaped) (hc : col < t.numColumns)
    (htol : 0 ≤ tol) (hl : t.leavingRow col tol = some row) (hf : ∀ r ∈ t.rows, 0 ≤ r.rhs)
    {k : Nat} (hk : k < t.rows.length) :
    -tol * t.stepLength row col ≤ ((t.pivot row col).rowAt k).rhs ∧
      ((t.rowAt k).vec col ≤ 0 ∨ tol < (t.rowAt k).vec col →
        0 ≤ ((t.pivot row col).rowAt k).rhs) := by
  have hs := h.leavingRow_spec hc tol
  rw [hl] at hs
  obtain ⟨hr, hpos, hle, -⟩ := hs
  rw [forall_mem_rows] at hf
  have hratio : 0 ≤ t.stepLength row col := div_nonneg (hf row hr) (htol.trans hpos.le)
  have hband : 0 ≤ tol * t.stepLength row col := mul_nonneg htol hratio
  have hk0 : 0 ≤ (t.rowAt k).rhs := hf k hk
  rw [h.rhs_rowAt_pivot hr hc hk.le, neg_mul]
  by_cases hkr : k = row
  · rw [if_pos hkr]
    exact ⟨by linarith, fun _ => hratio⟩
  rw [if_neg hkr]
  by_cases hneg : (t.rowAt k).vec col ≤ 0
  · have hgain := mul_nonpos_of_nonpos_of_nonneg hneg hratio
    exact ⟨by linarith, fun _ => by linarith⟩
  by_cases htest : tol < (t.rowAt k).vec col
  · -- The ratio of the row is not below the least one.
    rw [not_le] at hneg
    have hm : (t.rowAt k).vec col * t.stepLength row col ≤ _ :=
      mul_le_mul_of_nonneg_left (hle k hk htest) hneg.le
    rw [mul_div_cancel₀ _ hneg.ne'] at hm
    exact ⟨by linarith, fun _ => by linarith⟩
  · have hloss := mul_le_mul_of_nonneg_right (not_lt.mp htest) hratio
    exact ⟨by linarith, fun hor => absurd hor (not_or.mpr ⟨hneg, htest⟩)⟩

/-- **The ratio test keeps right sides nonnegative** when every positive entry takes part in it. -/
theorem WellShaped.rhs_pivot_nonneg (h : t.WellShaped) (hc : col < t.numColumns)
    (hl : t.leavingRow col 0 = some row) (hf : ∀ r ∈ t.rows, 0 ≤ r.rhs) :
    ∀ r ∈ (t.pivot row col).rows, 0 ≤ r.rhs := by
  rw [forall_mem_rows]
  intro k hk
  rw [length_rows_pivot] at hk
  exact (h.rhs_pivot_of_leavingRow hc le_rfl hl hf hk).2 (le_or_gt _ _)

/-- The objective cell grows by the negated reduced cost for each unit of the ratio. -/
theorem WellShaped.rhs_objective_pivot (h : t.WellShaped) (hr : row < t.rows.length)
    (hc : col < t.numColumns) :
    (t.pivot row col).objective.rhs =
      t.objective.rhs - t.objective.vec col * t.stepLength row col := by
  have he := h.rhs_rowAt_pivot hr hc (Nat.le_refl _)
  rwa [if_neg (by omega), rowAt_length, rowAt_length_pivot] at he

end Tableau

end TableauSimplex
