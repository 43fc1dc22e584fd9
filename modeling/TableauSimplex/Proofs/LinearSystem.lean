import TableauSimplex.Proofs.Elimination

/-!
# When a square system is solved

A matrix of rationals is handed to the elimination as the list of its rows (`entryRows`). The
elimination then works on the same coefficients (`coefficientMatrix_systemRows`), and the equations
of the rows hold at a point exactly when the product of matrix and point is the right side
(`forall_holds_systemRows_iff`). So a system is solved when the determinant is neither zero nor
below the tolerance, and the solution is the one that the inverse matrix gives
(`solvedWithin_solveRows`).

* `SolvedWithin`: a system is refused as singular or solved, as its determinant says.
* `solveSystem_entryRows`: this holds of every system with an unknown. Without unknowns there is no
  list of rows to tell the width from, and the system is refused for its shape.
-/

namespace TableauSimplex

open Matrix

variable {n : Nat} {A : Matrix (Fin n) (Fin n) Rat} {b : Fin n → Rat} {tol : Rat}

/-- The rows of a matrix, as lists of entries. -/
def entryRows (A : Matrix (Fin n) (Fin n) Rat) : List (List Rat) :=
  List.ofFn fun i => List.ofFn (A i)

/-- The rows of a system. -/
def systemRows (A : Matrix (Fin n) (Fin n) Rat) (b : Fin n → Rat) : List (Row Rat) :=
  List.ofFn fun i => ⟨List.ofFn (A i), b i⟩

theorem zipWith_entryRows : List.zipWith Row.mk (entryRows A) (List.ofFn b) = systemRows A b := by
  refine List.ext_getElem (by simp [entryRows, systemRows]) fun i hi hi' => ?_
  simp [entryRows, systemRows]

theorem mem_systemRows {r : Row Rat} : r ∈ systemRows A b ↔ ∃ i, ⟨List.ofFn (A i), b i⟩ = r :=
  List.mem_ofFn

theorem length_systemRows : (systemRows A b).length = n := List.length_ofFn

theorem width_systemRows : ∀ r ∈ systemRows A b, r.width = n := by
  intro r hr
  obtain ⟨i, rfl⟩ := mem_systemRows.mp hr
  exact List.length_ofFn

/-- **The elimination works on the coefficients of the matrix.** -/
theorem coefficientMatrix_systemRows : coefficientMatrix n (systemRows A b) = A := by
  ext i j
  simp [coefficientMatrix_apply, systemRows]

theorem Scalar.dot_ofFn (a x : Fin n → Rat) : dot (List.ofFn a) (List.ofFn x) = a ⬝ᵥ x := by
  rw [dot_eq, List.length_ofFn, Finset.sum_range]
  simp [dotProduct]

/-- **The equations of the rows** hold where the product of matrix and point is the right side. -/
theorem forall_holds_systemRows_iff (x : Fin n → Rat) :
    (∀ r ∈ systemRows A b, r.Holds (List.ofFn x)) ↔ A *ᵥ x = b := by
  simp only [mem_systemRows, forall_exists_index, forall_apply_eq_imp_iff, Row.Holds,
    Scalar.dot_ofFn]
  exact funext_iff.symm

/-- **When a system is solved,** and by what. -/
theorem solveRows_systemRows_eq_ok_iff {x : List Rat} :
    solveRows (systemRows A b) tol = .ok x ↔
      tol ≤ |A.det| ∧ A.det ≠ 0 ∧ ∃ y : Fin n → Rat, x = List.ofFn y ∧ A *ᵥ y = b := by
  rw [solveRows_eq_ok_iff length_systemRows width_systemRows, coefficientMatrix_systemRows]
  refine and_congr_right fun _ => and_congr_right fun _ => ?_
  constructor
  · rintro ⟨rfl, hholds⟩
    refine ⟨x.get, (List.ofFn_get x).symm, (forall_holds_systemRows_iff x.get).mp ?_⟩
    rwa [List.ofFn_get]
  · rintro ⟨y, rfl, hy⟩
    exact ⟨List.length_ofFn, (forall_holds_systemRows_iff y).mpr hy⟩

/-- A system is refused as one that has no unique solution. -/
def Error.IsSingular (e : Error) : Prop := e = .illConditioned ∨ e = .singular

/-- Elimination refuses a system for no other reason. -/
theorem isSingular_of_solveRows {rows : List (Row Rat)} {e : Error}
    (h : solveRows rows tol = .error e) : e.IsSingular := by
  unfold solveRows at h
  split at h
  · cases h
    exact .inl rfl
  · split at h
    · cases h
    · cases h
      exact .inr rfl

/-- A system is refused as singular when its determinant is zero or below the tolerance in size, and
otherwise solved by the only point that solves it. -/
structure SolvedWithin (tol : Rat) (A : Matrix (Fin n) (Fin n) Rat) (b : Fin n → Rat)
    (result : Except Error (List Rat)) : Prop where
  refused_iff : (∃ e, result = .error e ∧ e.IsSingular) ↔ |A.det| < tol ∨ A.det = 0
  solved : ¬(|A.det| < tol ∨ A.det = 0) →
    ∃ x : Fin n → Rat, result = .ok (List.ofFn x) ∧ A *ᵥ x = b ∧ ∀ y, A *ᵥ y = b → y = x

/-- **Elimination solves a system** as far as its determinant allows. -/
theorem solvedWithin_solveRows (A : Matrix (Fin n) (Fin n) Rat) (b : Fin n → Rat) (tol : Rat) :
    SolvedWithin tol A b (solveRows (systemRows A b) tol) := by
  have hsolved : ¬(|A.det| < tol ∨ A.det = 0) → ∃ x : Fin n → Rat,
      solveRows (systemRows A b) tol = .ok (List.ofFn x) ∧ A *ᵥ x = b ∧
        ∀ y, A *ᵥ y = b → y = x := by
    intro h
    rw [not_or, not_lt] at h
    have hunit : IsUnit A.det := isUnit_iff_ne_zero.mpr h.2
    have hinverse : A *ᵥ (A⁻¹ *ᵥ b) = b := by
      rw [mulVec_mulVec, mul_nonsing_inv A hunit, one_mulVec]
    refine ⟨A⁻¹ *ᵥ b, solveRows_systemRows_eq_ok_iff.mpr ⟨h.1, h.2, _, rfl, hinverse⟩, hinverse, ?_⟩
    rintro y rfl
    rw [mulVec_mulVec, nonsing_inv_mul A hunit, one_mulVec]
  refine ⟨⟨?_, fun h => ?_⟩, hsolved⟩
  · rintro ⟨e, he, -⟩
    by_contra h
    obtain ⟨x, hx, -⟩ := hsolved h
    rw [he] at hx
    cases hx
  · cases hresult : solveRows (systemRows A b) tol with
    | error e => exact ⟨e, rfl, isSingular_of_solveRows hresult⟩
    | ok x =>
      obtain ⟨htol, hne, -⟩ := solveRows_systemRows_eq_ok_iff.mp hresult
      exact absurd h (not_or.mpr ⟨not_lt.mpr htol, hne⟩)

theorem matrixLengths_entryRows (hn : 0 < n) (A : Matrix (Fin n) (Fin n) Rat) :
    matrixLengths (entryRows A) = .ok [n, n] := by
  obtain ⟨n, rfl⟩ := Nat.exists_eq_succ_of_ne_zero hn.ne'
  simp [entryRows, List.ofFn_succ, matrixLengths]

/-- **A system with an unknown is solved** by the only point that solves it, unless its determinant
is zero or below the tolerance in size; then it is refused as singular. A system without unknowns is
refused for its shape: a list without rows shows no width. -/
theorem solveSystem_entryRows (A : Matrix (Fin n) (Fin n) Rat) (b : Fin n → Rat) (tol : Rat) :
    (0 < n → SolvedWithin tol A b (solveSystem (entryRows A) (List.ofFn b) tol)) ∧
      (n = 0 → solveSystem (entryRows A) (List.ofFn b) tol = .error (.notSquare 0 [0])) := by
  constructor
  · intro hn
    have hsystem : solveSystem (entryRows A) (List.ofFn b) tol =
        solveRows (systemRows A b) tol := by
      rw [solveSystem, matrixLengths_entryRows hn, zipWith_entryRows]
      exact if_pos (by rw [List.length_ofFn])
    rw [hsystem]
    exact solvedWithin_solveRows A b tol
  · rintro rfl
    rfl

/-- A system that needs an exchange of rows in its first column. -/
def zeroCorner : Matrix (Fin 3) (Fin 3) Rat := !![0, 2, 1; 1, 1, 0; 3, 0, 1]

/-- The determinant is minus five, and the solution is found and is the only one. -/
theorem solveSystem_entryRows_zeroCorner :
    ¬(|zeroCorner.det| < 1e-10 ∨ zeroCorner.det = 0) ∧
      solveSystem (entryRows zeroCorner) [5, 3, 4] 1e-10 = .ok [1, 2, 1] ∧
      ∀ y, zeroCorner *ᵥ y = ![5, 3, 4] → y = ![1, 2, 1] := by
  have hdet : zeroCorner.det = -5 := by
    decide +kernel
  have hregular : ¬(|zeroCorner.det| < 1e-10 ∨ zeroCorner.det = 0) := by
    rw [hdet]
    norm_num
  have hvalue : (solveSystem (entryRows zeroCorner) [5, 3, 4] 1e-10).toOption = some [1, 2, 1] := by
    decide +kernel
  obtain ⟨x, hx, -, hunique⟩ :=
    ((solveSystem_entryRows zeroCorner ![5, 3, 4] 1e-10).1 (by decide)).solved hregular
  rw [show List.ofFn ![5, 3, 4] = [(5 : Rat), 3, 4] from rfl] at hx
  rw [hx] at hvalue
  obtain rfl : x = ![1, 2, 1] := List.ofFn_injective (Option.some.inj hvalue)
  exact ⟨hregular, hx, hunique⟩

/-- Without unknowns the determinant is one and the empty point solves the system, but the system is
refused. -/
theorem not_solvedWithin_without_unknowns :
    ¬∀ (n : Nat) (A : Matrix (Fin n) (Fin n) Rat) (b : Fin n → Rat) (tol : Rat), 0 ≤ tol →
      SolvedWithin tol A b (solveSystem (entryRows A) (List.ofFn b) tol) := by
  intro h
  have hregular : ¬(|(0 : Matrix (Fin 0) (Fin 0) Rat).det| < 0 ∨
      (0 : Matrix (Fin 0) (Fin 0) Rat).det = 0) := by
    rw [det_isEmpty]
    norm_num
  obtain ⟨x, hx, -⟩ := (h 0 0 0 0 le_rfl).solved hregular
  cases hx

end TableauSimplex
