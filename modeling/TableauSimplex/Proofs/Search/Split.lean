import TableauSimplex.IntegerSearch
import TableauSimplex.Proofs.Problem

/-!
# Integer points and the halves of a node

A search looks for the feasible points with whole coordinates (`Problem.IntegerFeasible`). A node
stands for a program (`Node.program`): that of the search with bounds on single variables added.

* `distance_le_of_none`, `lt_distance_of_some`: what the choice of a variable to branch on says.
* `VariableBound`: a bound on one variable. `VariableBound.NextTo` are those next to the coordinates
  of a point.
* `split_eq`: the halves of a node get one bound more. No whole number lies strictly between the two
  bounds, so that every integer point of the node lies in a half (`exists_half`).
-/

namespace TableauSimplex

/-- A feasible point with whole coordinates. -/
structure Problem.IntegerFeasible (p : Problem Rat) (x : List Rat) : Prop
    extends p.Feasible x where
  whole : ∀ a ∈ x, ∃ k : Int, (k : Rat) = a

/-- A rational number is whole when it is its numerator. -/
theorem exists_whole_iff {a : Rat} : (∃ k : Int, (k : Rat) = a) ↔ (a.num : Rat) = a := by
  constructor
  · rintro ⟨k, rfl⟩
    rw [Rat.num_intCast]
  · intro h
    exact ⟨a.num, h⟩

instance {p : Problem Rat} {x : List Rat} : Decidable (p.IntegerFeasible x) :=
  decidable_of_iff (p.Feasible x ∧ ∀ a ∈ x, (a.num : Rat) = a)
    ⟨fun h => ⟨h.1, fun a ha => exists_whole_iff.mpr (h.2 a ha)⟩,
      fun h => ⟨h.toFeasible, fun a ha => exists_whole_iff.mp (h.whole a ha)⟩⟩

/-! ## Distances to whole numbers -/

/-- The distance that the search measures. -/
def wholeDistance (a : Rat) : Rat := Scalar.abs (a - Scalar.roundRat a)

theorem exists_near_of_distance {a tol : Rat} (h : wholeDistance a ≤ tol) :
    ∃ k : Int, |a - k| ≤ tol :=
  ⟨Scalar.roundRat a, by rwa [← Scalar.abs_eq]⟩

theorem exists_whole_of_distance {a : Rat} (h : wholeDistance a ≤ 0) :
    ∃ k : Int, (k : Rat) = a := by
  obtain ⟨k, hk⟩ := exists_near_of_distance h
  exact ⟨k, (sub_eq_zero.mp (abs_nonpos_iff.mp hk)).symm⟩

/-- A whole number has no distance to the nearest one. -/
theorem wholeDistance_intCast (k : Int) : wholeDistance (k : Rat) ≤ 0 := by
  have hround : Scalar.roundRat (k : Rat) = k := by
    unfold Scalar.roundRat
    simp only [Rat.floor_intCast, sub_self]
    exact if_pos (by norm_num)
  rw [wholeDistance, hround, sub_self]
  exact Scalar.abs_le_iff.mpr ⟨le_of_eq neg_zero, le_refl _⟩

/-- A value that is not whole lies between two neighbours. -/
theorem ceil_eq_floor_add_one {a : Rat} (h : 0 < wholeDistance a) : a.ceil = a.floor + 1 := by
  have hne : (a.floor : Rat) ≠ a := fun he =>
    absurd (wholeDistance_intCast a.floor) (by rw [he]; exact not_le.mpr h)
  have hlow : a.floor < a.ceil := Rat.lt_ceil_iff.mpr (lt_of_le_of_ne (Rat.floor_le a) hne)
  have hhigh : (a.ceil : Rat) < ((a.floor + 2 : Int) : Rat) := by
    have h1 := Rat.ceil_lt (x := a)
    have h2 := Rat.lt_floor_add_one a
    push_cast at h2 ⊢
    linarith
  have hhigh := Int.cast_lt.mp hhigh
  omega

private theorem mostFractionalFrom_cons (j : Nat) (found : Option Nat) (worst a : Rat)
    (rest : List Rat) : mostFractionalFrom j found worst (a :: rest) =
      if worst < wholeDistance a then mostFractionalFrom (j + 1) (some j) (wholeDistance a) rest
      else mostFractionalFrom (j + 1) found worst rest := rfl

private theorem exists_mostFractionalFrom (j : Nat) (found : Option Nat) (worst : Rat)
    (xs : List Rat) : ∃ result, mostFractionalFrom j found worst xs = .ok result := by
  induction xs generalizing j found worst with
  | nil => exact ⟨found, rfl⟩
  | cons a rest ih =>
    rw [mostFractionalFrom_cons]
    split
    · exact ih _ _ _
    · exact ih _ _ _

/-- The choice of a variable succeeds. -/
theorem exists_mostFractional (values : List Rat) (tol : Rat) :
    ∃ found, mostFractional values tol = .ok found :=
  exists_mostFractionalFrom 0 none tol values

private theorem mostFractionalFrom_spec {j : Nat} {found : Option Nat} {worst : Rat}
    {xs : List Rat} {result : Option Nat}
    (h : mostFractionalFrom j found worst xs = .ok result) :
    (result = found ∧ ∀ a ∈ xs, wholeDistance a ≤ worst) ∨
      ∃ k, ∃ hk : k < xs.length, result = some (j + k) ∧ worst < wholeDistance xs[k] := by
  induction xs generalizing j found worst with
  | nil =>
    cases h
    exact .inl ⟨rfl, fun _ ha => absurd ha List.not_mem_nil⟩
  | cons a rest ih =>
    rw [mostFractionalFrom_cons] at h
    split at h
    · rename_i hlt
      right
      rcases ih h with ⟨rfl, -⟩ | ⟨k, hk, rfl, hworst⟩
      · exact ⟨0, by simp, by simp, hlt⟩
      · exact ⟨k + 1, by simpa using hk, by rw [Nat.add_assoc, Nat.add_comm 1], hlt.trans hworst⟩
    · rename_i hle
      rcases ih h with ⟨rfl, hall⟩ | ⟨k, hk, rfl, hworst⟩
      · left
        exact ⟨rfl, List.forall_mem_cons.mpr ⟨not_lt.mp hle, hall⟩⟩
      · right
        exact ⟨k + 1, by simpa using hk, by rw [Nat.add_assoc, Nat.add_comm 1], hworst⟩

/-- **Where no variable is chosen,** every value is near a whole number. -/
theorem distance_le_of_none {values : List Rat} {tol : Rat}
    (h : mostFractional values tol = .ok none) : ∀ a ∈ values, wholeDistance a ≤ tol := by
  rcases mostFractionalFrom_spec h with ⟨-, hall⟩ | ⟨k, hk, hnone, -⟩
  · exact hall
  · cases hnone

/-- **The variable that is chosen** has a value that is not near a whole number. -/
theorem lt_distance_of_some {values : List Rat} {tol : Rat} {j : Nat}
    (h : mostFractional values tol = .ok (some j)) :
    ∃ hj : j < values.length, tol < wholeDistance values[j] := by
  rcases mostFractionalFrom_spec h with ⟨hnone, -⟩ | ⟨k, hk, hsome, hworst⟩
  · cases hnone
  · rw [Nat.zero_add] at hsome
    cases hsome
    exact ⟨hk, hworst⟩

/-! ## Bounds on single variables -/

/-- A bound on one variable. -/
structure VariableBound where
  index : Nat
  sign : Sign
  limit : Int

/-- The constraint on `n` variables that a bound is. -/
def VariableBound.constraint (n : Nat) (b : VariableBound) : Constraint Rat :=
  boundConstraint n b.index b.sign b.limit

/-- The bounds next to a coordinate of a point, which keep whole numbers and leave out what lies
between. -/
inductive VariableBound.NextTo (values : List Rat) : VariableBound → Prop where
  | below {j : Nat} (hj : j < values.length) :
    NextTo values ⟨j, .atMost, (values.getD j 0).floor⟩
  | above {j : Nat} (hj : j < values.length) :
    NextTo values ⟨j, .atLeast, (values.getD j 0).ceil⟩

/-- The left side of a bound is its variable. -/
theorem VariableBound.lhs_constraint {n : Nat} {b : VariableBound} (hb : b.index < n)
    (x : List Rat) : (b.constraint n).lhs x = x.getD b.index 0 := by
  rw [Constraint.lhs, Scalar.dot_eq]
  simp only [constraint, boundConstraint, List.length_set, List.length_replicate]
  have hterm : ∀ k ∈ Finset.range n,
      ((List.replicate n (0 : Rat)).set b.index 1).getD k 0 * x.getD k 0 =
        if b.index = k then x.getD k 0 else 0 := fun k hk => by
    have hk' : k < ((List.replicate n (0 : Rat)).set b.index 1).length := by
      simpa using Finset.mem_range.mp hk
    rw [List.getD_eq_getElem _ _ hk', List.getElem_set]
    split
    · exact one_mul _
    · rw [List.getElem_replicate, zero_mul]
  rw [Finset.sum_congr rfl hterm, Finset.sum_ite_eq, if_pos (Finset.mem_range.mpr hb)]

section

variable {n j : Nat} {x : List Rat}

theorem VariableBound.holds_atMost {limit : Int} (hj : j < n) :
    ((⟨j, .atMost, limit⟩ : VariableBound).constraint n).Holds x ↔ x.getD j 0 ≤ limit := by
  rw [← lhs_constraint (b := ⟨j, .atMost, limit⟩) hj x]
  exact Iff.rfl

theorem VariableBound.holds_atLeast {limit : Int} (hj : j < n) :
    ((⟨j, .atLeast, limit⟩ : VariableBound).constraint n).Holds x ↔ limit ≤ x.getD j 0 := by
  rw [← lhs_constraint (b := ⟨j, .atLeast, limit⟩) hj x]
  exact Iff.rfl

/-- A whole coordinate is not above the floor of a value, or not below its ceiling. -/
theorem le_floor_or_ceil_le (hw : ∀ a ∈ x, ∃ k : Int, (k : Rat) = a) (hj : j < x.length) (v : Rat) :
    x.getD j 0 ≤ (v.floor : Rat) ∨ (v.ceil : Rat) ≤ x.getD j 0 := by
  obtain ⟨k, hk⟩ := hw x[j] (List.getElem_mem hj)
  rw [List.getD_eq_getElem _ _ hj, ← hk]
  rcases le_or_gt k v.floor with hle | hlt
  · exact .inl (Int.cast_le.mpr hle)
  · exact .inr (Int.cast_le.mpr (Rat.ceil_le_iff.mpr (Rat.floor_lt_iff.mp hlt).le))

end

/-! ## Nodes -/

namespace Node

variable {p : Problem Rat} {node : Node Rat} {z v : Rat} {j : Nat} {x : List Rat}

/-- The program whose relaxation a node stands for. -/
def program (p : Problem Rat) (node : Node Rat) : Problem Rat :=
  { p with constraints := node.constraints }

/-- A node with one bound more. -/
def half (p : Problem Rat) (node : Node Rat) (z : Rat) (b : VariableBound) : Node Rat :=
  ⟨node.constraints ++ [b.constraint p.numVars], some z, node.depth + 1⟩

/-- The half below a value. -/
def low (p : Problem Rat) (node : Node Rat) (z : Rat) (j : Nat) (v : Rat) : Node Rat :=
  node.half p z ⟨j, .atMost, v.floor⟩

/-- The half above a value. -/
def high (p : Problem Rat) (node : Node Rat) (z : Rat) (j : Nat) (v : Rat) : Node Rat :=
  node.half p z ⟨j, .atLeast, v.ceil⟩

theorem feasible_half_iff {b : VariableBound} :
    ((node.half p z b).program p).Feasible x ↔
      (node.program p).Feasible x ∧ (b.constraint p.numVars).Holds x := by
  constructor
  · intro h
    exact ⟨⟨h.length, h.nonneg, fun c hc => h.holds c (List.mem_append_left _ hc)⟩,
      h.holds _ (List.mem_append_right _ (List.mem_singleton.mpr rfl))⟩
  · rintro ⟨h, hb⟩
    refine ⟨h.length, h.nonneg, fun c hc => ?_⟩
    rcases List.mem_append.mp hc with hc | hc
    · exact h.holds c hc
    · rw [List.mem_singleton.mp hc]
      exact hb

/-- **Every integer point of a node lies in a half of it.** -/
theorem exists_half (hx : (node.program p).Feasible x) (hw : ∀ a ∈ x, ∃ k : Int, (k : Rat) = a)
    (hj : j < p.numVars) :
    ((node.low p z j v).program p).Feasible x ∨ ((node.high p z j v).program p).Feasible x := by
  rcases le_floor_or_ceil_le hw (hx.length ▸ hj) v with hle | hle
  · exact .inl (feasible_half_iff.mpr ⟨hx, (VariableBound.holds_atMost hj).mpr hle⟩)
  · exact .inr (feasible_half_iff.mpr ⟨hx, (VariableBound.holds_atLeast hj).mpr hle⟩)

end Node

/-- The halves of a node. -/
theorem Search.split_eq (p : Problem Rat) (node : Node Rat) (z : Rat) (j : Nat) (v : Rat) :
    Search.split p node z j v = .ok (node.low p z j v, node.high p z j v) := rfl

end TableauSimplex
