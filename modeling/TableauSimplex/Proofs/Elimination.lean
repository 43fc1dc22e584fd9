import TableauSimplex.Elimination
import TableauSimplex.Proofs.Problem

/-!
# Elimination with partial pivoting

The row that is pivoted on has the head of the largest size, so that a zero pivot means a column of
zeros (`isPivotChoice`). An elimination step takes the pivot out of the determinant
(`det_cons_eq`) and keeps what the rows say of the other unknowns (`forall_holds_cons_iff`). So
elimination fails exactly where the determinant is zero, and otherwise arrives at the determinant
and at the only solution (`Triangle.ofRows_spec`).

* `solveRows_eq_ok_iff`: when a square system is solved, and by what.
-/

namespace TableauSimplex

variable {first pivot r : Row Rat} {rest others rows : List (Row Rat)} {swapped : Bool} {n : Nat}
  {tol : Rat} {x : List Rat}

/-- The matrix of the coefficients of rows. -/
def coefficientMatrix (n : Nat) (rows : List (Row Rat)) : Matrix (Fin n) (Fin n) Rat :=
  Matrix.of fun i j => (rows.getD i ⟨[], 0⟩).coefficients.getD j 0

theorem coefficientMatrix_apply (i j : Fin n) :
    coefficientMatrix n rows i j = (rows.getD i ⟨[], 0⟩).coefficients.getD j 0 := rfl

/-- The equation of a row holds at a point. -/
def Row.Holds (r : Row Rat) (x : List Rat) : Prop := Scalar.dot r.coefficients x = r.rhs

/-! ## The choice of the pivot -/

/-- **The position of the largest size** is that of an entry, or none is larger than the best one
before. -/
theorem largestPosition_spec (i : Nat) (best : Nat × Rat) (xs : List Rat) :
    (largestPosition i best xs = best ∨
      ∃ j, ∃ hj : j < xs.length, largestPosition i best xs = (i + j, Scalar.abs xs[j])) ∧
      best.2 ≤ (largestPosition i best xs).2 ∧
      ∀ x ∈ xs, Scalar.abs x ≤ (largestPosition i best xs).2 := by
  induction xs generalizing i best with
  | nil => exact ⟨.inl rfl, le_refl _, nofun⟩
  | cons y ys ih =>
    rw [largestPosition]
    by_cases hy : best.2 < Scalar.abs y
    · rw [if_pos hy]
      obtain ⟨hfound, hle, hall⟩ := ih (i + 1) (i, Scalar.abs y)
      refine ⟨.inr ?_, hy.le.trans hle, List.forall_mem_cons.mpr ⟨hle, hall⟩⟩
      rcases hfound with hfound | ⟨j, hj, hfound⟩
      · exact ⟨0, Nat.zero_lt_succ _, hfound⟩
      · exact ⟨j + 1, Nat.succ_lt_succ hj, by rw [hfound, Nat.add_right_comm]; rfl⟩
    · rw [if_neg hy]
      obtain ⟨hfound, hle, hall⟩ := ih (i + 1) best
      refine ⟨hfound.imp_right ?_, hle,
        List.forall_mem_cons.mpr ⟨(not_lt.mp hy).trans hle, hall⟩⟩
      rintro ⟨j, hj, hfound⟩
      exact ⟨j + 1, Nat.succ_lt_succ hj, by rw [hfound, Nat.add_right_comm]; rfl⟩

/-- Rows with one of them exchanged for the first one. -/
theorem getD_exchange {k : Nat} (hk : k < rest.length) (i : Fin (rest.length + 1)) (d : Row Rat) :
    (rest[k] :: rest.set k first).getD i d =
      (first :: rest).getD
        (Equiv.swap (0 : Fin (rest.length + 1)) ⟨k + 1, Nat.succ_lt_succ hk⟩ i).val d := by
  rw [Equiv.swap_apply_def]
  induction i using Fin.cases with
  | zero => rw [if_pos rfl]; simp [List.getElem?_eq_getElem hk]
  | succ i =>
    rw [if_neg (Fin.succ_ne_zero i)]
    by_cases hik : (i : Nat) = k
    · rw [if_pos (Fin.ext (congrArg Nat.succ hik))]
      simp [hik, List.getElem?_set_self hk]
    · rw [if_neg fun h => hik (Nat.succ.inj (congrArg Fin.val h))]
      simp [List.getElem_set_ne (Ne.symm hik)]

theorem mem_exchange {k : Nat} (hk : k < rest.length) :
    r ∈ rest[k] :: rest.set k first ↔ r ∈ first :: rest := by
  have hrest : r ∈ rest ↔ r ∈ rest.take k ++ rest[k] :: rest.drop (k + 1) := by
    rw [List.cons_getElem_drop_succ, List.take_append_drop]
  rw [List.mem_cons, List.mem_cons, hrest, List.set_eq_take_append_cons_drop, if_pos hk]
  simp only [List.mem_append, List.mem_cons]
  tauto

/-- A pivot and the other rows are the given rows, up to one exchange, and no head is larger than
that of the pivot. -/
structure IsPivotChoice (first : Row Rat) (rest : List (Row Rat)) (swapped : Bool) (pivot : Row Rat)
    (others : List (Row Rat)) : Prop where
  length : others.length = rest.length
  mem_iff : ∀ r, r ∈ pivot :: others ↔ r ∈ first :: rest
  head_le : ∀ r ∈ pivot :: others, Scalar.abs r.head ≤ Scalar.abs pivot.head
  det : (coefficientMatrix (rest.length + 1) (pivot :: others)).det =
    (if swapped then -1 else 1) * (coefficientMatrix (rest.length + 1) (first :: rest)).det

/-- **Pivoting exchanges the row with the largest head to the front.** -/
theorem isPivotChoice (first : Row Rat) (rest : List (Row Rat)) :
    IsPivotChoice first rest (choosePivot first rest).1 (choosePivot first rest).2.1
      (choosePivot first rest).2.2 := by
  obtain ⟨hfound, hfirst, hrest⟩ :=
    largestPosition_spec 1 (0, Scalar.abs first.head) (rest.map Row.head)
  rw [List.forall_mem_map] at hrest
  rcases hfound with hfound | ⟨k, hk, hfound⟩
  · have hchoice : choosePivot first rest = (false, first, rest) := by
      simp only [choosePivot, hfound]
    rw [hfound] at hrest
    rw [hchoice]
    exact {
      length := rfl
      mem_iff := fun r => Iff.rfl
      head_le := List.forall_mem_cons.mpr ⟨le_refl _, hrest⟩
      det := (one_mul _).symm }
  · rw [List.length_map] at hk
    have hchoice : choosePivot first rest = (true, rest[k], rest.set k first) := by
      simp only [choosePivot, hfound, Nat.add_comm 1 k]
      rw [List.getD_eq_getElem _ _ hk]
    rw [hfound, List.getElem_map] at hfirst hrest
    rw [hchoice]
    exact {
      length := List.length_set
      mem_iff := fun r => mem_exchange hk
      head_le := fun r hr => by
        rcases List.mem_cons.mp ((mem_exchange hk).mp hr) with rfl | hr
        · exact hfirst
        · exact hrest r hr
      det := by
        have hne : (0 : Fin (rest.length + 1)) ≠ ⟨k + 1, Nat.succ_lt_succ hk⟩ :=
          fun h => absurd (congrArg Fin.val h) (Nat.succ_ne_zero k).symm
        have hsubmatrix : coefficientMatrix (rest.length + 1) (rest[k] :: rest.set k first) =
            (coefficientMatrix (rest.length + 1) (first :: rest)).submatrix
              (Equiv.swap 0 ⟨k + 1, Nat.succ_lt_succ hk⟩) id := by
          ext i j
          rw [Matrix.submatrix_apply, coefficientMatrix_apply, coefficientMatrix_apply,
            getD_exchange hk]
          rfl
        rw [hsubmatrix, Matrix.det_permute, Equiv.Perm.sign_swap hne]
        simp }

/-! ## One step -/

theorem Row.head_eq (h : r.width = n + 1) : r.head = r.coefficients.getD 0 0 := by
  have hlt : 0 < r.coefficients.length := by rw [← width, h]; exact Nat.succ_pos n
  rw [head, entry, List.getD_eq_getElem _ _ hlt, List.getD_eq_getElem _ _ hlt]

theorem width_eliminateHead {a : Rat} (hp : pivot.width = n + 1) (hr : r.width = n + 1) :
    (eliminateHead a pivot r).width = n := by
  simp only [Row.width] at hp hr
  simp [eliminateHead, Row.tail, Row.subMul, Row.zipWith, Row.width, hp, hr]

theorem getD_eliminateHead {a : Rat} (hp : pivot.width = n + 1) (hr : r.width = n + 1) {j : Nat}
    (hj : j < n) : (eliminateHead a pivot r).coefficients.getD j 0 =
      r.coefficients.getD (j + 1) 0 - r.head * a * pivot.coefficients.getD (j + 1) 0 := by
  simp only [Row.width] at hp hr
  have h1 : j < r.coefficients.tail.length := by rw [List.length_tail, hr]; exact hj
  have h2 : j < pivot.coefficients.tail.length := by rw [List.length_tail, hp]; exact hj
  simp only [eliminateHead, Row.tail, Row.subMul, Row.zipWith]
  rw [List.getD_eq_getElem _ _ (by rw [List.length_zipWith]; exact lt_min h1 h2),
    List.getElem_zipWith, List.getElem_tail, List.getElem_tail, List.getD_eq_getElem,
    List.getD_eq_getElem]

/-- **An elimination step takes the pivot out of the determinant.** -/
theorem det_cons_eq (hw : ∀ r ∈ pivot :: others, r.width = n + 1) (hlen : others.length = n)
    (hp : pivot.head ≠ 0) :
    (coefficientMatrix (n + 1) (pivot :: others)).det = pivot.head *
      (coefficientMatrix n (others.map (eliminateHead (1 / pivot.head) pivot))).det := by
  obtain ⟨hpw, how⟩ := List.forall_mem_cons.mp hw
  let multiplier : Fin (n + 1) → Rat :=
    Fin.cases 0 fun i => (others.getD i ⟨[], 0⟩).head * (1 / pivot.head)
  let cleared : Matrix (Fin (n + 1)) (Fin (n + 1)) Rat := Matrix.of fun i j =>
    coefficientMatrix (n + 1) (pivot :: others) i j -
      multiplier i * coefficientMatrix (n + 1) (pivot :: others) 0 j
  have hzero : multiplier 0 = 0 := rfl
  have hdet : (coefficientMatrix (n + 1) (pivot :: others)).det = cleared.det :=
    Matrix.det_eq_of_forall_row_eq_smul_add_const multiplier 0 hzero fun i j => by
      simp [cleared, hzero]
  have hother : ∀ i : Fin n, others.getD i ⟨[], 0⟩ ∈ others := fun i => by
    rw [List.getD_eq_getElem _ _ (hlen ▸ i.isLt)]
    exact List.getElem_mem _
  have hentry : ∀ (i : Fin n) (j : Fin (n + 1)), cleared i.succ j =
      (others.getD i ⟨[], 0⟩).coefficients.getD j 0 -
        (others.getD i ⟨[], 0⟩).head * (1 / pivot.head) * pivot.coefficients.getD j 0 :=
    fun i j => rfl
  have hcolumn : ∀ i : Fin n, cleared i.succ 0 = 0 := fun i => by
    rw [hentry, Fin.val_zero, ← Row.head_eq hpw, ← Row.head_eq (how _ (hother i)), mul_assoc,
      one_div_mul_cancel hp, mul_one, sub_self]
  have hminor : cleared.submatrix (Fin.succAbove 0) Fin.succ =
      coefficientMatrix n (others.map (eliminateHead (1 / pivot.head) pivot)) := by
    ext i j
    have hi : (i : Nat) < others.length := hlen ▸ i.isLt
    rw [Matrix.submatrix_apply, Fin.succAbove_zero, hentry, coefficientMatrix_apply, Fin.val_succ,
      List.getD_eq_getElem (others.map _) _ (by simpa using hi), List.getElem_map,
      List.getD_eq_getElem others _ hi, getD_eliminateHead hpw (how _ (List.getElem_mem hi)) j.isLt]
  have hcorner : cleared 0 0 = pivot.head := by
    show pivot.coefficients.getD 0 0 - 0 * pivot.coefficients.getD 0 0 = pivot.head
    rw [zero_mul, sub_zero, Row.head_eq hpw]
  rw [hdet, Matrix.det_succ_column_zero, Finset.sum_eq_single 0]
  · rw [hminor, hcorner, Fin.val_zero, pow_zero, one_mul]
  · intro i _ hi
    obtain ⟨i, rfl⟩ := Fin.exists_succ_eq.mpr hi
    rw [hcolumn, mul_zero, zero_mul]
  · exact fun h => absurd (Finset.mem_univ _) h

/-- Where all heads are zero, so is the determinant. -/
theorem det_eq_zero (hw : ∀ r ∈ rows, r.width = n + 1) (h0 : ∀ r ∈ rows, r.head = 0) :
    (coefficientMatrix (n + 1) rows).det = 0 := by
  refine Matrix.det_eq_zero_of_column_eq_zero 0 fun i => ?_
  rw [coefficientMatrix_apply, Fin.val_zero]
  rcases Nat.lt_or_ge i rows.length with hi | hi
  · have hm : rows[(i : Nat)] ∈ rows := List.getElem_mem hi
    rw [List.getD_eq_getElem _ _ hi, ← Row.head_eq (hw _ hm), h0 _ hm]
  · rw [List.getD_eq_default _ _ hi]
    rfl

/-! ## What the rows say -/

theorem Scalar.dot_cons (a y : Rat) (as ys : List Rat) :
    dot (a :: as) (y :: ys) = a * y + dot as ys := by
  simp only [dot, sum_eq, List.zipWith_cons_cons, List.sum_cons]

/-- A row read at its first unknown and at the others. -/
theorem Row.dot_cons (h : r.width = n + 1) (y : Rat) (ys : List Rat) :
    Scalar.dot r.coefficients (y :: ys) = r.head * y + Scalar.dot r.tail.coefficients ys := by
  obtain ⟨a, as, has⟩ := List.exists_cons_of_length_eq_add_one h
  rw [Row.head_eq h, Row.tail, has]
  exact Scalar.dot_cons a y as ys

theorem dot_eliminateHead {a : Rat} (hp : pivot.width = n + 1) (hr : r.width = n + 1) :
    Scalar.dot (eliminateHead a pivot r).coefficients x =
      Scalar.dot r.tail.coefficients x - r.head * a * Scalar.dot pivot.tail.coefficients x := by
  have htail : ∀ q : Row Rat, q.width = n + 1 → Scalar.dot q.tail.coefficients x =
      ∑ j ∈ Finset.range n, q.coefficients.getD (j + 1) 0 * x.getD j 0 := fun q hq => by
    obtain ⟨b, bs, hbs⟩ := List.exists_cons_of_length_eq_add_one hq
    have hlen : bs.length = n := by
      rw [Row.width, hbs] at hq
      exact Nat.succ.inj hq
    rw [Row.tail, hbs, List.tail_cons, Scalar.dot_eq, hlen]
    rfl
  have hlen : (eliminateHead a pivot r).coefficients.length = n := width_eliminateHead hp hr
  rw [htail r hr, htail pivot hp, Scalar.dot_eq, hlen, Finset.mul_sum, ← Finset.sum_sub_distrib]
  refine Finset.sum_congr rfl fun j hj => ?_
  rw [getD_eliminateHead hp hr (Finset.mem_range.mp hj)]
  ring

/-- **An elimination step keeps what the rows say** of the other unknowns. -/
theorem forall_holds_cons_iff (hw : ∀ r ∈ pivot :: others, r.width = n + 1) (hp : pivot.head ≠ 0)
    (y : Rat) :
    (∀ r ∈ pivot :: others, r.Holds (y :: x)) ↔
      y = (pivot.rhs - Scalar.dot pivot.tail.coefficients x) / pivot.head ∧
        ∀ r ∈ others.map (eliminateHead (1 / pivot.head) pivot), r.Holds x := by
  obtain ⟨hpw, how⟩ := List.forall_mem_cons.mp hw
  have hpivot : pivot.Holds (y :: x) ↔
      y = (pivot.rhs - Scalar.dot pivot.tail.coefficients x) / pivot.head := by
    rw [Row.Holds, Row.dot_cons hpw, eq_div_iff hp, eq_sub_iff_add_eq, mul_comm]
  rw [List.forall_mem_cons, List.forall_mem_map, hpivot]
  refine and_congr_right fun hy => forall₂_congr fun r hr => ?_
  rw [Row.Holds, Row.Holds, Row.dot_cons (how r hr), dot_eliminateHead hpw (how r hr)]
  have hrhs : (eliminateHead (1 / pivot.head) pivot r).rhs =
      r.rhs - r.head * (1 / pivot.head) * pivot.rhs := rfl
  rw [hrhs, hy]
  field_simp
  constructor <;> intro h <;> linarith

/-! ## The triangular system -/

theorem Scalar.product_cons (a : Rat) (as : List Rat) : product (a :: as) = a * product as := by
  have hprod : ∀ xs : List Rat, product xs = xs.prod := fun xs => List.prod_eq_foldl.symm
  rw [hprod, hprod, List.prod_cons]

/-- The known unknowns are taken off the right side. -/
theorem foldr_sub (as ys : List Rat) (b : Rat) :
    (as.zip ys).foldr (fun (a, y) b => b - a * y) b = b - Scalar.dot as ys := by
  induction as generalizing ys with
  | nil => simp [Scalar.dot, Scalar.sum_eq]
  | cons a as ih =>
    cases ys with
    | nil => simp [Scalar.dot, Scalar.sum_eq]
    | cons y ys =>
      rw [List.zip_cons_cons, List.foldr_cons, ih, Scalar.dot_cons]
      ring

/-- What elimination comes to: it fails where the determinant is zero, and otherwise arrives at the
determinant and at the only solution. -/
inductive Triangle.Solves (n : Nat) (rows : List (Row Rat)) : Option (Triangle Rat) → Prop
  | singular (h : (coefficientMatrix n rows).det = 0) : Solves n rows none
  | regular (t : Triangle Rat) (hdet : t.determinant = (coefficientMatrix n rows).det)
    (hne : t.determinant ≠ 0)
    (hsolution : ∀ x, x.length = n ∧ (∀ r ∈ rows, r.Holds x) ↔ x = t.solution) :
    Solves n rows (some t)

namespace Triangle

/-- The determinant with a row put on top. -/
theorem determinant_cons (t : Triangle Rat) (row : TriangleRow Rat) :
    determinant ⟨t.isOdd, row :: t.rows⟩ = row.pivot * t.determinant := by
  simp only [determinant, List.map_cons, Scalar.product_cons]
  cases t.isOdd <;> simp

/-- An exchange negates the determinant. -/
theorem determinant_exchange (t : Triangle Rat) (swapped : Bool) :
    determinant ⟨t.isOdd != swapped, t.rows⟩ = (if swapped then -1 else 1) * t.determinant := by
  simp only [determinant]
  cases t.isOdd <;> cases swapped <;> simp

/-- The solution with a row put on top. -/
theorem solution_cons (t : Triangle Rat) (isOdd : Bool) (row : TriangleRow Rat) :
    solution ⟨isOdd, row :: t.rows⟩ =
      (row.rhs - Scalar.dot row.rest t.solution) / row.pivot :: t.solution := by
  simp only [solution, solveRows, foldr_sub]

namespace Solves

variable {result : Option (Triangle Rat)}

/-- **A pivot row on top of what its elimination comes to.** -/
theorem cons (hw : ∀ r ∈ pivot :: others, r.width = n + 1) (hlen : others.length = n)
    (hp : pivot.head ≠ 0)
    (h : Solves n (others.map (eliminateHead (1 / pivot.head) pivot)) result) :
    Solves (n + 1) (pivot :: others) (result.map fun t =>
      ⟨t.isOdd, ⟨pivot.head, pivot.tail.coefficients, pivot.rhs⟩ :: t.rows⟩) := by
  have hstep := det_cons_eq hw hlen hp
  cases h with
  | singular h => exact .singular (by rw [hstep, h, mul_zero])
  | regular t hdet hne hsolution =>
    refine .regular _ ?_ ?_ fun x => ?_
    · rw [determinant_cons, hstep, hdet]
    · rw [determinant_cons]
      exact mul_ne_zero hp hne
    · rw [solution_cons]
      cases x with
      | nil => simp
      | cons y ys =>
        rw [forall_holds_cons_iff hw hp y, List.length_cons, Nat.add_right_cancel_iff,
          List.cons.injEq]
        constructor
        · rintro ⟨hlen, hy, hall⟩
          have hys := (hsolution ys).mp ⟨hlen, hall⟩
          exact ⟨hys ▸ hy, hys⟩
        · rintro ⟨hy, rfl⟩
          obtain ⟨hlen, hall⟩ := (hsolution _).mpr rfl
          exact ⟨hlen, hy, hall⟩

/-- **The rows in the order that they are pivoted in** have the same solution. -/
theorem exchange (hchoice : IsPivotChoice first rest swapped pivot others)
    (h : Solves (rest.length + 1) (pivot :: others) result) :
    Solves (rest.length + 1) (first :: rest)
      (result.map fun t => ⟨t.isOdd != swapped, t.rows⟩) := by
  have hdet : (coefficientMatrix (rest.length + 1) (first :: rest)).det =
      (if swapped then -1 else 1) *
        (coefficientMatrix (rest.length + 1) (pivot :: others)).det := by
    rw [hchoice.det]
    cases swapped <;> simp
  cases h with
  | singular h => exact .singular (by rw [hdet, h, mul_zero])
  | regular t htdet hne hsolution =>
    refine .regular _ ?_ ?_ fun x => ?_
    · rw [determinant_exchange, hdet, htdet]
    · rw [determinant_exchange]
      refine mul_ne_zero ?_ hne
      cases swapped <;> simp
    · rw [forall_congr' fun r => imp_congr_left (hchoice.mem_iff r).symm]
      exact hsolution x

end Solves

/-- **Elimination finds the determinant and the only solution.** -/
theorem ofRows_spec (hlen : rows.length = n) (hw : ∀ r ∈ rows, r.width = n) :
    Solves n rows (ofRows n rows) := by
  induction n generalizing rows with
  | zero =>
    rw [List.length_eq_zero_iff] at hlen
    subst hlen
    refine .regular _ ?_ one_ne_zero fun x => ?_
    · rw [Matrix.det_isEmpty]
      rfl
    · rw [List.length_eq_zero_iff]
      exact and_iff_left nofun
  | succ n ih =>
    obtain ⟨first, rest, rfl⟩ := List.exists_cons_of_length_eq_add_one hlen
    obtain rfl : rest.length = n := Nat.succ.inj hlen
    have hchoice := isPivotChoice first rest
    obtain ⟨⟨swapped, pivot, others⟩, hpivot⟩ : ∃ c, choosePivot first rest = c := ⟨_, rfl⟩
    simp only [ofRows, hpivot, beq_iff_eq] at hchoice ⊢
    have hwidth : ∀ r ∈ pivot :: others, r.width = rest.length + 1 := fun r hr =>
      hw r ((hchoice.mem_iff r).mp hr)
    by_cases hp : pivot.head = 0
    · -- The pivot is the largest of the heads, so that all of them are zero.
      have hheads : ∀ r ∈ pivot :: others, r.head = 0 := fun r hr => by
        have hle := hchoice.head_le r hr
        rw [hp, Scalar.abs_eq, Scalar.abs_eq, abs_zero] at hle
        exact abs_nonpos_iff.mp hle
      rw [if_pos hp]
      exact .exchange hchoice (.singular (det_eq_zero hwidth hheads))
    · have hbelow := ih ((List.length_map _).trans hchoice.length) (List.forall_mem_map.mpr
        fun r hr => width_eliminateHead (a := 1 / pivot.head) (hwidth _ List.mem_cons_self)
          (hwidth r (List.mem_cons_of_mem _ hr)))
      have hsolves := (hbelow.cons hwidth hchoice.length hp).exchange hchoice
      rw [Option.map_map] at hsolves
      rw [if_neg hp]
      exact hsolves

end Triangle

/-! ## Systems -/

/-- The determinant that elimination computes is that of the matrix. -/
theorem determinant_eq (hlen : rows.length = n) (hw : ∀ r ∈ rows, r.width = n) :
    determinant rows = (coefficientMatrix n rows).det := by
  have h := Triangle.ofRows_spec hlen hw
  rw [determinant, hlen]
  generalize Triangle.ofRows n rows = result at h
  cases h with
  | singular h => exact h.symm
  | regular t hdet _ _ => exact hdet

/-- **When a square system is solved,** and by what: the determinant is neither zero nor below the
tolerance in size, and the solution is the only one. -/
theorem solveRows_eq_ok_iff (hlen : rows.length = n) (hw : ∀ r ∈ rows, r.width = n) :
    solveRows rows tol = .ok x ↔
      tol ≤ |(coefficientMatrix n rows).det| ∧ (coefficientMatrix n rows).det ≠ 0 ∧
        x.length = n ∧ ∀ r ∈ rows, r.Holds x := by
  have h := Triangle.ofRows_spec hlen hw
  rw [solveRows, determinant_eq hlen hw, Scalar.abs_eq, hlen]
  generalize Triangle.ofRows n rows = result at h
  by_cases htol : |(coefficientMatrix n rows).det| < tol
  · rw [if_pos htol]
    exact ⟨nofun, fun h => absurd htol (not_lt.mpr h.1)⟩
  rw [if_neg htol]
  cases h with
  | singular h => exact ⟨nofun, fun hx => absurd h hx.2.1⟩
  | regular t hdet hne hsolution =>
    rw [hsolution x, Except.ok.injEq, ← hdet]
    exact ⟨fun hx => ⟨hdet ▸ not_lt.mp htol, hne, hx.symm⟩, fun hx => hx.2.2.symm⟩

end TableauSimplex
