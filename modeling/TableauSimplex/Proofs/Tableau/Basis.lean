import TableauSimplex.Proofs.Tableau.Direction
import TableauSimplex.Proofs.Tableau.Start

/-!
# Bases of a program

The canonical tableaux of a program differ in their objective row, which knows the penalty, and in
their basis. The set of basic columns alone determines the basic values (`HasRowsOf.valueOf_eq`) and
the rays (`HasRowsOf.ray_eq`). There are finitely many such sets, so whatever they determine is
bounded over all runs with all penalties (`exists_bound`).
-/

namespace TableauSimplex

namespace Tableau

variable {p : Problem Rat} {t t' : Tableau Rat} {penalty : Rat} {col : Nat}

/-- A canonical tableau whose constraint rows stand for the constraints of a program. -/
structure HasRowsOf (p : Problem Rat) (t : Tableau Rat) : Prop extends Canonical t where
  numColumns : t.numColumns = p.numVars + p.numAuxiliary
  rowSpace : t.rowSpace = Submodule.span Rat {w | ∃ r ∈ p.startRows, r.vec = w}

/-- The set of basic columns. -/
def basicCols (t : Tableau Rat) : Finset Nat := (Finset.range t.rows.length).image t.basicCol

theorem mem_basicCols {j : Nat} :
    j ∈ t.basicCols ↔ ∃ i < t.rows.length, t.basicCol i = j := by
  simp [basicCols]

theorem not_mem_basicCols {j : Nat} :
    j ∉ t.basicCols ↔ ∀ i < t.rows.length, t.basicCol i ≠ j := by
  simp [basicCols]

theorem WellShaped.forall_mem_basis (h : t.WellShaped) {P : Int → Prop} :
    (∀ c ∈ t.basis, P c) ↔ ∀ j ∈ t.basicCols, P (j : Int) := by
  constructor
  · intro hP j hj
    obtain ⟨i, hi, rfl⟩ := Finset.mem_image.mp hj
    have hb : i < t.basis.length := h.length_basis ▸ Finset.mem_range.mp hi
    rw [← (h.basis_eq hb).1]
    exact hP _ (List.getElem_mem hb)
  · intro hP c hc
    obtain ⟨i, hi, rfl⟩ := List.getElem_of_mem hc
    rw [(h.basis_eq hi).1]
    exact hP _ (Finset.mem_image_of_mem _ (Finset.mem_range.mpr (h.length_basis ▸ hi)))

/-- The basis lists the basic columns. -/
theorem WellShaped.natCast_mem_basis (h : t.WellShaped) {j : Nat} :
    (j : Int) ∈ t.basis ↔ j ∈ t.basicCols := by
  have hne := h.forall_mem_basis (P := fun c => c ≠ (j : Int))
  constructor
  · intro hj
    by_contra hnot
    exact hne.mpr (fun k hk hkj => hnot (Int.natCast_inj.mp hkj ▸ hk)) _ hj rfl
  · intro hj
    by_contra hnot
    exact hne.mp (fun c hc hcj => hnot (hcj ▸ hc)) j hj rfl

theorem Canonical.objective_of_mem_basicCols (h : t.Canonical) {j : Nat} (hj : j ∈ t.basicCols) :
    t.objective.vec j = 0 := by
  obtain ⟨i, hi, rfl⟩ := Finset.mem_image.mp hj
  exact h.objective_basicCol (Finset.mem_range.mp hi)

/-- **The values** are determined by the basic columns, where the rows of one tableau hold at the
values of the other. -/
theorem Canonical.valueOf_eq (h : t.Canonical) (h' : t'.Canonical)
    (hrows : ∀ r ∈ t.rows, r.lhs t'.valueOf = r.rhs) (hb : t.basicCols = t'.basicCols) :
    t.valueOf = t'.valueOf := by
  refine h.eq_of_rows h.solves_valueOf.1 hrows fun j hj => ?_
  rw [h.valueOf_eq_zero j hj]
  rw [← not_mem_basicCols, hb, not_mem_basicCols] at hj
  rw [h'.valueOf_eq_zero j hj]

theorem SameEquations.hasRowsOf (hp : p.Regular) (h : SameEquations (start p penalty) t)
    (ht : t.Canonical) : t.HasRowsOf p where
  toCanonical := ht
  numColumns := h.numColumns_eq hp
  rowSpace := h.rowSpace

namespace HasRowsOf

variable (h : t.HasRowsOf p) (h' : t'.HasRowsOf p)

include h h'

/-- Tableaux of one program admit the same points. -/
theorem rows_hold {v : Nat → Rat} (hv : ∀ r ∈ t'.rows, r.lhs v = r.rhs) :
    ∀ r ∈ t.rows, r.lhs v = r.rhs := by
  rw [h.toWellShaped.rows_hold_iff, h.rowSpace, h.numColumns]
  rwa [h'.toWellShaped.rows_hold_iff, h'.rowSpace, h'.numColumns] at hv

variable (hb : t.basicCols = t'.basicCols)

include hb

theorem valueOf_eq : t.valueOf = t'.valueOf :=
  h.toCanonical.valueOf_eq h'.toCanonical (h.rows_hold h' h'.solves_valueOf.1) hb

theorem ray_eq (hc : col < t.numColumns) : t.ray col = t'.ray col := by
  have hc' : col < t'.numColumns := by rw [h'.numColumns, ← h.numColumns]; exact hc
  -- The points one step along the rays agree off the basis.
  have hs := h.solves_valueOf.add_smul (h.drift_ray hc) 1
  have hs' := h'.solves_valueOf.add_smul (h'.drift_ray hc') 1
  rw [one_smul] at hs hs'
  have he : t.valueOf + t.ray col = t'.valueOf + t'.ray col := by
    refine h.eq_of_rows hs.1 (h.rows_hold h' hs'.1) fun j hj => ?_
    rw [Pi.add_apply, Pi.add_apply, ray_of_nonbasic hj, h.valueOf_eq h' hb]
    rw [← not_mem_basicCols, hb, not_mem_basicCols] at hj
    rw [ray_of_nonbasic hj]
  rwa [h.valueOf_eq h' hb, add_right_inj] at he

end HasRowsOf

/-- **What the basic columns determine is bounded** over all tableaux of a program. -/
theorem exists_bound (p : Problem Rat) (f : Tableau Rat → Rat)
    (hf : ∀ t t', t.HasRowsOf p → t'.HasRowsOf p → t.basicCols = t'.basicCols → f t = f t') :
    ∃ bound, ∀ t, t.HasRowsOf p → f t ≤ bound := by
  classical
  -- One tableau for every set of columns that is a basis.
  let g : Finset Nat → Rat := fun B =>
    if h : ∃ t, t.HasRowsOf p ∧ t.basicCols = B then f h.choose else 0
  obtain ⟨bound, hbound⟩ :=
    (((Finset.range (p.numVars + p.numAuxiliary)).powerset.image g).finite_toSet).bddAbove
  refine ⟨bound, fun t ht => ?_⟩
  have hex : ∃ t' : Tableau Rat, t'.HasRowsOf p ∧ t'.basicCols = t.basicCols := ⟨t, ht, rfl⟩
  have hsub : t.basicCols ⊆ Finset.range (p.numVars + p.numAuxiliary) := by
    intro j hj
    obtain ⟨i, hi, rfl⟩ := Finset.mem_image.mp hj
    rw [Finset.mem_range, ← ht.numColumns]
    exact ht.basicCol_lt (Finset.mem_range.mp hi)
  have hg : g t.basicCols = f t := by
    simp only [g]
    rw [dif_pos hex]
    exact hf _ _ hex.choose_spec.1 ht hex.choose_spec.2
  rw [← hg]
  exact hbound (Finset.mem_coe.mpr (Finset.mem_image_of_mem g (Finset.mem_powerset.mpr hsub)))

end Tableau

end TableauSimplex
