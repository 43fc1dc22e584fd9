import TableauSimplex.Proofs.Records
import TableauSimplex.Proofs.Tableau.Basis
import TableauSimplex.Tableau.Reading

/-!
# Tableaux with the same basis

Pivots that succeed lead from a canonical tableau to canonical tableaux of the same equations
(`PivotsTo.canonical`, `PivotsTo.sameEquations`). Two of these with the same set of basic columns
are the same but for the order of their rows, however the pivots went: both objective rows differ
by a combination of the constraint rows that is zero in the basic columns
(`SameEquations.objective_eq`), and so do two rows with the same basic column
(`SameEquations.rowAt_eq`).

* `Tableau.PivotsTo`: what a tableau comes to by successful pivots.
* `basis_determines_tableau`: what the basic columns alone determine. In particular a pivot is
  undone by one on the column that left the basis.
-/

namespace TableauSimplex

namespace Tableau

variable {t t' t₁ t₂ : Tableau Rat} {row col i k : Nat}

/-! ## Pivots -/

/-- The second tableau is the first after a successful pivot on a constraint row and a column. -/
def PivotsOnce (t t' : Tableau Rat) : Prop :=
  ∃ row < t.rows.length, ∃ col < t.numColumns, t.tryPivot row (col : Int) = (t', none)

/-- What a tableau comes to by any number of successful pivots. -/
def PivotsTo : Tableau Rat → Tableau Rat → Prop := Relation.ReflTransGen PivotsOnce

/-- A pivot succeeds where its entry is not zero. -/
theorem WellShaped.tryPivot_eq_iff (h : t.WellShaped) (hr : row < t.rows.length)
    (hc : col < t.numColumns) :
    t.tryPivot row (col : Int) = (t', none) ↔
      (t.rowAt row).vec col ≠ 0 ∧ t' = t.pivot row col := by
  rw [h.labelled.tryPivot_eq hr hc, h.labelled.entry_eq_vec hc]
  by_cases h0 : (t.rowAt row).vec col = 0
  · simp [h0]
  · simp [h0, eq_comm]

theorem WellShaped.pivotsOnce (h : t.WellShaped) (hr : row < t.rows.length)
    (hc : col < t.numColumns) (hp : (t.rowAt row).vec col ≠ 0) : t.PivotsOnce (t.pivot row col) :=
  ⟨row, hr, col, hc, (h.tryPivot_eq_iff hr hc).mpr ⟨hp, rfl⟩⟩

theorem PivotsOnce.canonical (hp : t.PivotsOnce t') (h : t.Canonical) : t'.Canonical := by
  obtain ⟨row, hr, col, hc, htry⟩ := hp
  obtain ⟨h0, rfl⟩ := (h.tryPivot_eq_iff hr hc).mp htry
  exact h.pivot hr hc h0

theorem PivotsOnce.sameEquations (hp : t.PivotsOnce t') (h : t.Canonical) :
    SameEquations t t' := by
  obtain ⟨row, hr, col, hc, htry⟩ := hp
  obtain ⟨h0, rfl⟩ := (h.tryPivot_eq_iff hr hc).mp htry
  exact h.sameEquations_pivot hr hc h0

/-- **Pivots keep a tableau canonical.** -/
theorem PivotsTo.canonical (hp : t.PivotsTo t') (h : t.Canonical) : t'.Canonical := by
  induction hp with
  | refl => exact h
  | tail _ hstep ih => exact hstep.canonical ih

/-- **Pivots keep the equations.** -/
theorem PivotsTo.sameEquations (hp : t.PivotsTo t') (h : t.Canonical) : SameEquations t t' := by
  induction hp with
  | refl => exact .refl _
  | tail hprev hstep ih => exact ih.trans (hstep.sameEquations (PivotsTo.canonical hprev h))

theorem SameEquations.symm (h : SameEquations t t') : SameEquations t' t where
  numColumns := h.numColumns.symm
  length_rows := h.length_rows.symm
  rowSpace := h.rowSpace.symm
  objective := by
    rw [h.rowSpace, ← neg_sub]
    exact Submodule.neg_mem _ h.objective
  frame := by rw [h.frame]

/-! ## Basic columns -/

/-- What stands beside each other in the basis and in the rows. -/
theorem WellShaped.mem_zip_iff (h : t.WellShaped) {entry : Int × Row Rat} :
    entry ∈ t.basis.zip t.rows ↔
      ∃ i < t.rows.length, ((t.basicCol i : Int), t.rowAt i) = entry := by
  have hlen : (t.basis.zip t.rows).length = t.rows.length := by
    rw [List.length_zip, h.length_basis, Nat.min_self]
  have hget : ∀ i (hi : i < (t.basis.zip t.rows).length),
      (t.basis.zip t.rows)[i] = ((t.basicCol i : Int), t.rowAt i) := fun i hi => by
    have hrow : i < t.rows.length := hlen ▸ hi
    rw [List.getElem_zip, (h.basis_eq (h.length_basis ▸ hrow)).1, rowAt_of_lt hrow]
  constructor
  · intro hmem
    obtain ⟨i, hi, rfl⟩ := List.getElem_of_mem hmem
    exact ⟨i, hlen ▸ hi, (hget i hi).symm⟩
  · rintro ⟨i, hi, rfl⟩
    rw [← hget i (hlen.symm ▸ hi)]
    exact List.getElem_mem _

/-! ## Rows -/

namespace SameEquations

variable (h : SameEquations t₁ t₂) (h₁ : t₁.Canonical) (h₂ : t₂.Canonical)

include h h₁ h₂

section

variable (hb : t₁.basicCols = t₂.basicCols)

include hb

/-- **The objective row** is determined by the basic columns. -/
theorem objective_eq : t₁.objective = t₂.objective := by
  have hdifference : t₂.objective.vec - t₁.objective.vec = 0 :=
    h₁.eq_zero_of_mem_rowSpace h.objective fun i hi => by
      have hi₁ : t₁.basicCol i ∈ t₁.basicCols := mem_basicCols.mpr ⟨i, hi, rfl⟩
      rw [Pi.sub_apply, h₁.objective_of_mem_basicCols hi₁,
        h₂.objective_of_mem_basicCols (hb ▸ hi₁), sub_zero]
  exact Row.eq_of_vec_eq h.numColumns.symm (sub_eq_zero.mp hdifference).symm

/-- **A row** is determined by its basic column and the set of all of them. -/
theorem rowAt_eq (hi : i < t₁.rows.length) (hk : k < t₂.rows.length)
    (he : t₁.basicCol i = t₂.basicCol k) : t₁.rowAt i = t₂.rowAt k := by
  have hmem : (t₂.rowAt k).vec - (t₁.rowAt i).vec ∈ t₁.rowSpace :=
    Submodule.sub_mem _ (h.rowSpace ▸ vec_mem_rowSpace hk) (vec_mem_rowSpace hi)
  have hdifference : (t₂.rowAt k).vec - (t₁.rowAt i).vec = 0 :=
    h₁.eq_zero_of_mem_rowSpace hmem fun j hj => by
      -- The column is basic in both tableaux, and in both rows or in none of them.
      have hj₁ : t₁.basicCol j ∈ t₁.basicCols := mem_basicCols.mpr ⟨j, hj, rfl⟩
      obtain ⟨l, hl, hlj⟩ := mem_basicCols.mp (hb ▸ hj₁)
      have hsame : k = l ↔ i = j := by
        constructor
        · rintro rfl
          exact h₁.basicCol_inj hi hj (he.trans hlj)
        · rintro rfl
          exact h₂.basicCol_inj hk hl (he.symm.trans hlj.symm)
      rw [Pi.sub_apply, h₁.unit j hj i hi.le, ← hlj, h₂.unit l hl k hk.le]
      simp [hsame]
  have hwidth : (t₁.rowAt i).width = (t₂.rowAt k).width := by
    rw [h₁.width_rowAt, h₂.width_rowAt, h.numColumns]
  exact Row.eq_of_vec_eq hwidth (sub_eq_zero.mp hdifference).symm

/-- **The rows beside their basic columns** are the same up to their order. -/
theorem zip_perm : (t₁.basis.zip t₁.rows).Perm (t₂.basis.zip t₂.rows) := by
  have hnodup : ∀ {t : Tableau Rat}, t.Canonical → (t.basis.zip t.rows).Nodup := fun ht =>
    List.Nodup.of_map Prod.fst (by
      rw [List.map_fst_zip ht.length_basis.le]
      exact ht.nodup_basis)
  refine (List.perm_ext_iff_of_nodup (hnodup h₁) (hnodup h₂)).mpr fun entry => ?_
  rw [h₁.mem_zip_iff, h₂.mem_zip_iff]
  constructor
  · rintro ⟨i, hi, rfl⟩
    obtain ⟨k, hk, hki⟩ := mem_basicCols.mp (hb ▸ mem_basicCols.mpr ⟨i, hi, rfl⟩)
    exact ⟨k, hk, by rw [hki, h.rowAt_eq h₁ h₂ hb hi hk hki.symm]⟩
  · rintro ⟨k, hk, rfl⟩
    obtain ⟨i, hi, hik⟩ := mem_basicCols.mp (hb ▸ mem_basicCols.mpr ⟨k, hk, rfl⟩)
    exact ⟨i, hi, by rw [hik, h.rowAt_eq h₁ h₂ hb hi hk hik]⟩

/-- **The values** are determined by the basic columns. -/
theorem valueOf_eq : t₁.valueOf = t₂.valueOf :=
  h₁.valueOf_eq h₂ ((h.solves_iff h₁.toWellShaped h₂.toWellShaped).mp h₂.solves_valueOf).1 hb

/-- What is read off the objective row is determined by the basic columns. -/
theorem readings_eq :
    t₁.objectiveValue = t₂.objectiveValue ∧ ∀ p, t₁.shadowPrices p = t₂.shadowPrices p := by
  have hobjective := h.objective_eq h₁ h₂ hb
  rw [h.frame, ← hobjective]
  exact ⟨rfl, fun _ => rfl⟩

end

/-- **The whole tableau** is determined by its basis. -/
theorem eq_of_basis (hb : t₁.basis = t₂.basis) : t₁ = t₂ := by
  have hcols : t₁.basicCols = t₂.basicCols := by
    ext j
    rw [← h₁.natCast_mem_basis, ← h₂.natCast_mem_basis, hb]
  have hrows : t₁.rows = t₂.rows := by
    refine List.ext_getElem h.length_rows.symm fun i hi hi' => ?_
    rw [← rowAt_of_lt hi, ← rowAt_of_lt hi']
    exact h.rowAt_eq h₁ h₂ hcols hi hi' (by rw [basicCol, basicCol, hb])
  rw [h.frame, ← hrows, ← h.objective_eq h₁ h₂ hcols, ← hb]

end SameEquations

/-! ## A pivot and back -/

/-- The column that a pivot makes leave the basis can be pivoted on. -/
theorem Canonical.vec_pivot_basicCol_ne_zero (h : t.Canonical) (hr : row < t.rows.length)
    (hc : col < t.numColumns) (hp : (t.rowAt row).vec col ≠ 0) :
    ((t.pivot row col).rowAt row).vec (t.basicCol row) ≠ 0 := by
  rw [h.vec_rowAt_pivot hr hc hr.le, if_pos rfl, unitVec, Pi.smul_apply, h.unit row hr row hr.le,
    if_pos rfl, smul_eq_mul, mul_one]
  exact inv_ne_zero hp

/-- **A pivot is undone** by one on the column that left the basis. -/
theorem Canonical.tryPivot_tryPivot (h : t.Canonical) (hr : row < t.rows.length)
    (hc : col < t.numColumns) (htry : t.tryPivot row (col : Int) = (t', none)) :
    t'.tryPivot row (t.basicCol row : Int) = (t, none) := by
  obtain ⟨hp, rfl⟩ := (h.tryPivot_eq_iff hr hc).mp htry
  have h' := h.pivot hr hc hp
  have hr' : row < (t.pivot row col).rows.length := by rwa [length_rows_pivot]
  have hc' : t.basicCol row < (t.pivot row col).numColumns := by
    rw [h.numColumns_pivot hr]
    exact h.basicCol_lt hr
  have hback := h.vec_pivot_basicCol_ne_zero hr hc hp
  have hthere : t.PivotsTo (t.pivot row col) := .single (h.pivotsOnce hr hc hp)
  have hround := hthere.tail (h'.pivotsOnce hr' hc' hback)
  have hb : row < t.basis.length := h.length_basis ▸ hr
  have hbasis : t.basis = ((t.pivot row col).pivot row (t.basicCol row)).basis := by
    simp only [Tableau.pivot, List.set_set, ← (h.basis_eq hb).1, List.set_getElem_self]
  refine (h'.tryPivot_eq_iff hr' hc').mpr ⟨hback, ?_⟩
  exact (PivotsTo.sameEquations hround h).eq_of_basis h (PivotsTo.canonical hround h) hbasis

end Tableau

/-- **What the basic columns determine.** Two tableaux that a canonical tableau comes to by
successful pivots, with the same set of basic columns, have the same objective row and, beside their
basic columns, the same rows. So they have the same value for every column, the same objective value
and the same prices, and with the same basis they are one tableau. In particular a pivot followed by
one in the same row on the column that it made leave the basis gives the tableau back. -/
theorem basis_determines_tableau {t : Tableau Rat} (h : t.Canonical) :
    (∀ t₁ t₂, t.PivotsTo t₁ → t.PivotsTo t₂ → (∀ c, c ∈ t₁.basis ↔ c ∈ t₂.basis) →
      t₁.objective = t₂.objective ∧ (t₁.basis.zip t₁.rows).Perm (t₂.basis.zip t₂.rows) ∧
      (t₁.basis = t₂.basis → t₁ = t₂) ∧ t₁.valueOf = t₂.valueOf ∧
      t₁.objectiveValue = t₂.objectiveValue ∧ ∀ p, t₁.shadowPrices p = t₂.shadowPrices p) ∧
    ∀ row < t.rows.length, ∀ col < t.numColumns, ∀ t' old,
      t.tryPivot row (col : Int) = (t', none) → t.basis[row]? = some old →
      t'.tryPivot row old = (t, none) := by
  constructor
  · intro t₁ t₂ hp₁ hp₂ hbasis
    have h₁ := hp₁.canonical h
    have h₂ := hp₂.canonical h
    have hsame := (hp₁.sameEquations h).symm.trans (hp₂.sameEquations h)
    have hcols : t₁.basicCols = t₂.basicCols := by
      ext j
      rw [← h₁.natCast_mem_basis, ← h₂.natCast_mem_basis, hbasis]
    exact ⟨hsame.objective_eq h₁ h₂ hcols, hsame.zip_perm h₁ h₂ hcols, hsame.eq_of_basis h₁ h₂,
      hsame.valueOf_eq h₁ h₂ hcols, hsame.readings_eq h₁ h₂ hcols⟩
  · intro row hr col hc t' old htry hold
    have hb : row < t.basis.length := h.length_basis ▸ hr
    rw [List.getElem?_eq_getElem hb, (h.basis_eq hb).1] at hold
    obtain rfl := Option.some.inj hold
    exact h.tryPivot_tryPivot hr hc htry

/-- Two rows whose slacks are basic, one of them below zero. -/
def crossedRows : Tableau Rat where
  rows := [⟨[2, 1, 1, 0], 4⟩, ⟨[1, 3, 0, 1], -6⟩]
  objective := ⟨[-1, -2, 0, 0], 5⟩
  headers := [.text "x", .text "y", .text "s1", .text "s2"]
  basis := [2, 3]
  slackCols := [some 2, some 3]
  surplusCols := [none, none]
  artificialCols := [none, none]
  numDecision := 2
  minimize := false
  penalty := 100000

theorem canonical_crossedRows : crossedRows.Canonical where
  width_eq := by decide
  length_headers := rfl
  length_basis := rfl
  basis_lt := by
    intro c hc
    simp only [crossedRows, List.mem_cons, List.not_mem_nil, or_false] at hc
    rcases hc with rfl | rfl
    · exact ⟨2, by decide, rfl⟩
    · exact ⟨3, by decide, rfl⟩
  unit := by decide +kernel

/-- Both variables enter the basis, each in either row. No tableau in between is shared. -/
theorem basis_determines_tableau_crossedRows :
    ∃ t₁ t₂, crossedRows.PivotsTo t₁ ∧ crossedRows.PivotsTo t₂ ∧ t₁.basis = [0, 1] ∧
      t₂.basis = [1, 0] ∧ t₁.objective = t₂.objective ∧
      (t₁.basis.zip t₁.rows).Perm (t₂.basis.zip t₂.rows) ∧ t₁.valueOf = t₂.valueOf ∧
      (crossedRows.pivot 0 0).tryPivot 0 2 = (crossedRows, none) := by
  have h := canonical_crossedRows
  obtain ⟨hsame, hback⟩ := basis_determines_tableau canonical_crossedRows
  have hstraight : crossedRows.PivotsOnce (crossedRows.pivot 0 0) :=
    h.pivotsOnce (by decide) (by decide) (by decide +kernel)
  have hcross : crossedRows.PivotsOnce (crossedRows.pivot 0 1) :=
    h.pivotsOnce (by decide) (by decide) (by decide +kernel)
  have hstraight' : (crossedRows.pivot 0 0).PivotsOnce ((crossedRows.pivot 0 0).pivot 1 1) :=
    (hstraight.canonical h).pivotsOnce (by decide) (by decide +kernel) (by decide +kernel)
  have hcross' : (crossedRows.pivot 0 1).PivotsOnce ((crossedRows.pivot 0 1).pivot 1 0) :=
    (hcross.canonical h).pivotsOnce (by decide) (by decide +kernel) (by decide +kernel)
  have hp₁ := (Relation.ReflTransGen.single hstraight).tail hstraight'
  have hp₂ := (Relation.ReflTransGen.single hcross).tail hcross'
  have hbasis₁ : ((crossedRows.pivot 0 0).pivot 1 1).basis = [0, 1] := rfl
  have hbasis₂ : ((crossedRows.pivot 0 1).pivot 1 0).basis = [1, 0] := rfl
  have hset : ∀ c : Int, c ∈ ((crossedRows.pivot 0 0).pivot 1 1).basis ↔
      c ∈ ((crossedRows.pivot 0 1).pivot 1 0).basis := fun c => by
    rw [hbasis₁, hbasis₂]
    simp [or_comm]
  obtain ⟨hobjective, hperm, -, hvalues, -⟩ := hsame _ _ hp₁ hp₂ hset
  exact ⟨_, _, hp₁, hp₂, hbasis₁, hbasis₂, hobjective, hperm, hvalues,
    hback 0 (by decide) 0 (by decide) _ 2
      ((h.tryPivot_eq_iff (by decide) (by decide)).mpr ⟨by decide +kernel, rfl⟩) rfl⟩

end TableauSimplex
