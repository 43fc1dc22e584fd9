import TableauSimplex.Proofs.Records

/-!
# The ratio test

A pivot on the row of the least ratio keeps right sides that are not negative, but for rows whose
entry is positive and within the tolerance: the ratio test passes these over, and they fall by no
more than the tolerance times the ratio. Without a tolerance there are none, so that a run, which
pivots on negative reduced costs, goes from one tableau without a negative right side to another and
never lowers the objective cell (`Run.Visits.risesTo`).

None of this depends on the names or the basis of a tableau. Where they do not go with its rows a
step may fail halfway, after the row operations (`Run.afterStep_cases`).
-/

namespace TableauSimplex

namespace Tableau

variable {t t' t'' : Tableau Rat} {row col : Nat}

/-- The second tableau has no negative right side, and its objective cell is not below that of the
first. -/
structure RisesTo (t t' : Tableau Rat) : Prop where
  rectangular : t'.Rectangular
  rhs_nonneg : ∀ q ∈ t'.rows, 0 ≤ q.rhs
  objective_le : t.objective.rhs ≤ t'.objective.rhs

theorem RisesTo.trans (h : t.RisesTo t') (h' : t'.RisesTo t'') : t.RisesTo t'' :=
  ⟨h'.rectangular, h'.rhs_nonneg, h.objective_le.trans h'.objective_le⟩

namespace Rectangular

variable (h : t.Rectangular) (hf : ∀ q ∈ t.rows, 0 ≤ q.rhs)

include h hf

theorem risesTo_self : t.RisesTo t := ⟨h, hf, le_rfl⟩

/-- **A pivot on a column of negative reduced cost** after a ratio test without a tolerance. -/
theorem risesTo_pivot (hc : col < t.numColumns) (hcost : t.objective.entry col ≤ 0)
    (hl : t.leavingRow col 0 = some row) : t.RisesTo (t.pivot row col) where
  rectangular := h.pivot hc (h.firstLeast hc hl).lt
  rhs_nonneg := by
    rw [forall_mem_rows]
    intro i hi
    rw [length_rows_pivot] at hi
    exact (h.rhs_pivot hc le_rfl hl hf hi).2 (le_or_gt _ _)
  objective_le := by
    have hratio := h.ratio_nonneg hc le_rfl hl hf
    have hgain := mul_nonpos_of_nonpos_of_nonneg hcost hratio
    rw [h.rhs_objective_pivot hc (h.firstLeast hc hl).lt]
    linarith

end Rectangular

end Tableau

namespace Run

variable {s : Settings Rat} {r q : Run Rat}

/-- **A step pivots on the leaving row or leaves the tableau as it is,** also where it fails. -/
theorem afterStep_cases (h : r.tableau.Rectangular) (hs : 0 ≤ s.ratio) :
    (r.afterStep s).tableau = r.tableau ∨ ∃ row col,
      r.tableau.enteringColumn s.entering = .ok (some col) ∧
      r.tableau.leavingRow col s.ratio = some row ∧
      (r.afterStep s).tableau = r.tableau.pivot row col := by
  have he := r.tableau.enteringColumn_spec s.entering
  rw [afterStep, step]
  cases hcol : r.tableau.enteringColumn s.entering with
  | error cause => exact .inl rfl
  | ok entering =>
    rw [hcol] at he
    cases entering with
    | none => exact .inl rfl
    | some col =>
      simp only
      cases hrow : r.tableau.leavingRow col s.ratio with
      | none =>
        left
        cases r.tableau.headers[col]? <;> rfl
      | some row =>
        simp only [pivotOn]
        cases (r.tableau.basis[row]?).bind (itemAt? r.tableau.headers) with
        | none => exact .inl rfl
        | some leaving =>
          -- The row operations are made. What may fail comes after them.
          right
          refine ⟨row, col, rfl, hrow, ?_⟩
          rw [h.tryPivot_leavingRow he.2.lt hs hrow]
          by_cases hb : row < r.tableau.basis.length
          · rw [if_pos hb]
            simp only
            cases (r.tableau.pivot row col).snapshot r.iterations.length (some (col : Int))
                (some leaving) (some (row : Int)) <;> rfl
          · rw [if_neg hb]

variable (he : 0 ≤ s.entering) (hs : s.ratio = 0)

include he hs

/-- **One step.** -/
theorem risesTo_afterStep (h : r.tableau.Rectangular) (hf : ∀ q ∈ r.tableau.rows, 0 ≤ q.rhs) :
    r.tableau.RisesTo (r.afterStep s).tableau := by
  rcases afterStep_cases h hs.ge with heq | ⟨row, col, hcol, hrow, heq⟩
  · rw [heq]
    exact h.risesTo_self hf
  · have hspec := r.tableau.enteringColumn_spec s.entering
    rw [hcol] at hspec
    obtain ⟨hcost, hleast⟩ := hspec
    rw [← Row.entry_eq_vec (r := r.tableau.objective) hleast.lt.le] at hcost
    rw [heq]
    exact h.risesTo_pivot hf hleast.lt (by linarith) (hs ▸ hrow)

/-- **A whole run.** The induction is on the steps that are left. -/
theorem risesTo_loop (fuel : Nat) (h : r.tableau.Rectangular)
    (hf : ∀ q ∈ r.tableau.rows, 0 ≤ q.rhs) : r.tableau.RisesTo (loop s fuel r).1.tableau := by
  induction fuel generalizing r with
  | zero => exact h.risesTo_self hf
  | succ fuel ih =>
    have hone := risesTo_afterStep he hs h hf
    rw [afterStep] at hone
    rw [loop]
    cases hstep : r.step s with
    | optimal => exact h.risesTo_self hf
    | failed reached cause =>
      rw [hstep] at hone
      exact hone
    | pivoted next =>
      rw [hstep] at hone
      simp only
      split
      · exact hone
      · exact hone.trans (ih hone.rectangular hone.rhs_nonneg)

/-- **Steps and whole runs in any order.** -/
theorem Visits.risesTo (hv : Visits s r q) (h : r.tableau.Rectangular)
    (hf : ∀ q ∈ r.tableau.rows, 0 ≤ q.rhs) : r.tableau.RisesTo q.tableau := by
  induction hv with
  | start => exact h.risesTo_self hf
  | step _ ih => exact ih.trans (risesTo_afterStep he hs ih.rectangular ih.rhs_nonneg)
  | finish _ ih => exact ih.trans (risesTo_loop he hs _ ih.rectangular ih.rhs_nonneg)

end Run

/-- **The ratio test and its pivot**, on any tableau without a negative right side. For a column and
a tolerance that is not negative, no row leaves exactly when no entry of the column is above the
tolerance. Otherwise the first row of the least ratio among those with such an entry leaves. The
ratio is not negative, the pivot is refused by nothing but a missing place in the basis, and it
raises the objective cell by the ratio times the negated reduced cost. No right side falls below
minus the tolerance times the ratio, and none at all falls below zero in a row whose entry was not
positive or above the tolerance.

So with ratio tolerance zero, every tableau that a run comes to by steps and whole runs has no
negative right side, and its objective cell is not below those before it. -/
theorem ratio_test {t : Tableau Rat} (h : t.Rectangular) (hf : ∀ q ∈ t.rows, 0 ≤ q.rhs) :
    (∀ col < t.numColumns, ∀ tol, 0 ≤ tol →
      (t.leavingRow col tol = none ↔ ∀ q ∈ t.rows, q.entry col ≤ tol) ∧
      ∀ row, t.leavingRow col tol = some row →
        FirstLeast (fun i => tol < (t.rowAt i).entry col)
          (fun i => (t.rowAt i).rhs / (t.rowAt i).entry col) t.rows.length row ∧
        ∃ ratio t', ratio = (t.rowAt row).rhs / (t.rowAt row).entry col ∧ 0 ≤ ratio ∧
          t.tryPivot row (col : Int) =
            (t', if row < t.basis.length then none else some .outOfRange) ∧
          t'.objective.rhs - t.objective.rhs = -t.objective.entry col * ratio ∧
          t'.rows.length = t.rows.length ∧
          ∀ i < t.rows.length, -tol * ratio ≤ (t'.rowAt i).rhs ∧
            ((t.rowAt i).entry col ≤ 0 ∨ tol < (t.rowAt i).entry col → 0 ≤ (t'.rowAt i).rhs)) ∧
    ∀ s first, 0 ≤ s.entering → s.ratio = 0 → Run.start t = .ok first →
      ∀ r, Run.Visits s first r → ∀ q, Run.Visits s r q →
        (∀ row ∈ q.tableau.rows, 0 ≤ row.rhs) ∧
          r.tableau.objective.rhs ≤ q.tableau.objective.rhs := by
  constructor
  · intro col hc tol htol
    refine ⟨h.leavingRow_eq_none_iff hc, fun row hl => ?_⟩
    have hrow := h.firstLeast hc hl
    refine ⟨hrow, _, _, rfl, h.ratio_nonneg hc htol hl hf, h.tryPivot_leavingRow hc htol hl, ?_,
      Tableau.length_rows_pivot, fun i hi => h.rhs_pivot hc htol hl hf hi⟩
    rw [h.rhs_objective_pivot hc hrow.lt]
    ring
  · intro s first he hs hfirst r hr q hq
    have htableau := Run.tableau_start hfirst
    have hrise := hr.risesTo he hs (htableau ▸ h) (htableau ▸ hf)
    have hnext := hq.risesTo he hs hrise.rectangular hrise.rhs_nonneg
    exact ⟨hnext.rhs_nonneg, hnext.objective_le⟩

/-- A column with an entry within a tolerance of one, a tie and an entry below zero. -/
def passedOver : Tableau Rat where
  rows := [⟨[1, 1, 0], 1⟩, ⟨[2, 0, 1], 4⟩, ⟨[3, 0, 0], 6⟩, ⟨[-1, 0, 0], 0⟩]
  objective := ⟨[-5, 0, 0], 7⟩
  headers := [.text "x", .text "s1", .text "s2"]
  basis := [1, 2, 2, 2]
  slackCols := [some 1, some 2, none, none]
  surplusCols := [none, none, none, none]
  artificialCols := [none, none, none, none]
  numDecision := 1
  minimize := false
  penalty := 100000

/-- With tolerance one the first row is passed over and falls below zero. With tolerance zero it is
the one that leaves. -/
theorem ratio_test_passedOver :
    (passedOver.leavingRow 0 1 = some 1 ∧ ∃ t', passedOver.tryPivot 1 0 = (t', none) ∧
      t'.objective.rhs - 7 = 10 ∧ (t'.rowAt 0).rhs = -1 ∧ -2 ≤ (t'.rowAt 0).rhs ∧
      0 ≤ (t'.rowAt 2).rhs) ∧
    ∃ first last : Run Rat, Run.start passedOver = .ok first ∧
      (first.finish ({ ratio := 0 } : Settings Rat)).1 = last ∧ last.tableau.basis = [0, 2, 2, 2] ∧
      (∀ row ∈ last.tableau.rows, 0 ≤ row.rhs) ∧ 7 ≤ last.tableau.objective.rhs := by
  obtain ⟨hone, hrun⟩ := ratio_test (t := passedOver) (by decide) (by decide +kernel)
  constructor
  · have hl : passedOver.leavingRow 0 1 = some 1 := by decide +kernel
    obtain ⟨-, ratio, t', hratio, -, htry, hobjective, -, hrhs⟩ :=
      (hone 0 (by decide) 1 (by decide)).2 1 hl
    have htwo : ratio = 2 := hratio.trans (by decide +kernel)
    have hcell : -passedOver.objective.entry 0 = 5 := by decide +kernel
    have hthird : 1 < (passedOver.rowAt 2).entry 0 := by decide +kernel
    have hfirst : ((passedOver.tryPivot 1 0).1.rowAt 0).rhs = -1 := by decide +kernel
    have hlow := (hrhs 0 (by decide)).1
    rw [show passedOver.tryPivot 1 0 = _ from htry] at hfirst
    rw [hcell, htwo] at hobjective
    rw [htwo] at hlow
    refine ⟨hl, t', htry, ?_, hfirst, ?_, (hrhs 2 (by decide)).2 (.inr hthird)⟩
    · exact hobjective.trans (by norm_num)
    · linarith
  · obtain ⟨first, hfirst, hbasis⟩ := exists_of_toOption_any (Run.start passedOver)
      (fun first => (first.finish ({ ratio := 0 } : Settings Rat)).1.tableau.basis = [0, 2, 2, 2])
      (by decide +kernel)
    have hobjective : first.tableau.objective.rhs = 7 := by
      rw [Run.tableau_start hfirst]
      rfl
    obtain ⟨hrhs, hle⟩ := hrun { ratio := 0 } first (by decide +kernel) rfl hfirst first .start _
      Run.Visits.start.finish
    exact ⟨first, _, hfirst, rfl, hbasis, hrhs, hobjective ▸ hle⟩

end TableauSimplex
