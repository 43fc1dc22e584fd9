import Mathlib
import TableauSimplex.Tableau.BigM

/-!
# Points of a program

What it means for a point to satisfy a program of rationals, without tolerances, and how far a point
misses it.

* `Problem.Regular`: the objective and every constraint have one coefficient per variable.
* `Problem.Feasible`: a nonnegative point that satisfies every constraint.
* `Problem.Relaxed`, `Problem.shortfall`: a point that artificial variables can make up for, and how
  much they have to add. A point is feasible when it is relaxed and has no shortfall
  (`feasible_iff_relaxed`).
* `Constraint.lhs_add_eq_rhs`: slack, surplus and shortfall make up for the difference of the sides.
* `Sense.orient`, `Problem.gain`: values of the objective turned so that greater is better.
-/

namespace TableauSimplex

namespace Scalar

theorem sum_eq (xs : List Rat) : Scalar.sum xs = xs.sum := by
  rw [List.sum_eq_foldl]
  rfl

theorem dot_eq (xs ys : List Rat) :
    dot xs ys = ∑ j ∈ Finset.range xs.length, xs.getD j 0 * ys.getD j 0 := by
  rw [dot, sum_eq]
  induction xs generalizing ys with
  | nil => simp
  | cons x xs ih =>
    cases ys with
    | nil => simp
    | cons y ys =>
      rw [List.zipWith_cons_cons, List.sum_cons, ih, List.length_cons, Finset.sum_range_succ']
      simp [add_comm]

/-- The point whose coordinates are the first `n` values of a function. -/
theorem dot_range {xs : List Rat} {n : Nat} (h : xs.length = n) (v : Nat → Rat) :
    dot xs ((List.range n).map v) = ∑ j ∈ Finset.range n, xs.getD j 0 * v j := by
  rw [dot_eq, h]
  refine Finset.sum_congr rfl fun j hj => ?_
  have hj' := Finset.mem_range.mp hj
  rw [List.getD_eq_getElem ((List.range n).map v) _ (by simpa using hj'), List.getElem_map,
    List.getElem_range]

theorem dot_map_neg (xs ys : List Rat) : dot (xs.map (-·)) ys = -dot xs ys := by
  rw [dot_eq, dot_eq, List.length_map, ← Finset.sum_neg_distrib]
  refine Finset.sum_congr rfl fun j hj => ?_
  have hj' := Finset.mem_range.mp hj
  rw [List.getD_eq_getElem _ _ (by simpa using hj'), List.getD_eq_getElem xs _ hj',
    List.getElem_map, neg_mul]

end Scalar

theorem Scalar.abs_eq (a : Rat) : Scalar.abs a = |a| := by
  rcases le_total 0 a with ha | ha
  · rw [abs_of_nonneg ha]
    exact Rat.abs_of_nonneg ha
  · rw [abs_of_nonpos ha]
    exact Rat.abs_of_nonpos ha

theorem Scalar.abs_le_iff {a b : Rat} : Scalar.abs a ≤ b ↔ -b ≤ a ∧ a ≤ b := by
  rw [Scalar.abs_eq, abs_le]

namespace Sense

/-- A value of the objective, turned so that greater is better. -/
def orient : Sense → Rat → Rat
  | maximize, z => z
  | minimize, z => -z

/-- The first value is strictly better than the second. -/
def Better : Sense → Rat → Rat → Prop
  | maximize, a, b => b < a
  | minimize, a, b => a < b

theorem better_iff (s : Sense) (a b : Rat) : s.Better a b ↔ s.orient b < s.orient a := by
  cases s <;> simp [Better, orient]

theorem not_better_iff (s : Sense) (a b : Rat) : ¬s.Better a b ↔ s.orient a ≤ s.orient b := by
  rw [s.better_iff, not_lt]

theorem sum_orient (s : Sense) (n : Nat) (a y : Nat → Rat) :
    ∑ i ∈ Finset.range n, a i * s.orient (y i) =
      s.orient (∑ i ∈ Finset.range n, a i * y i) := by
  cases s <;> simp [orient]

@[simp] theorem orient_orient (s : Sense) (z : Rat) : s.orient (s.orient z) = z := by
  cases s <;> simp [orient]

theorem orient_inj (s : Sense) {a b : Rat} : s.orient a = s.orient b ↔ a = b := by
  cases s <;> simp [orient]

theorem abs_orient_sub (s : Sense) (a b : Rat) : |s.orient a - s.orient b| = |a - b| := by
  cases s with
  | maximize => rfl
  | minimize => rw [orient, orient, neg_sub_neg, abs_sub_comm]

end Sense

namespace Constraint

variable (c : Constraint Rat) (x : List Rat)

/-- The constraint holds at a point exactly. -/
def Holds : Prop :=
  match c.sign with
  | .atMost => c.lhs x ≤ c.rhs
  | .atLeast => c.rhs ≤ c.lhs x
  | .equal => c.lhs x = c.rhs

/-- The constraint holds once enough is added to its left side, where it may be added. -/
def Relaxed : Prop :=
  match c.sign with
  | .atMost => c.lhs x ≤ c.rhs
  | .atLeast => True
  | .equal => c.lhs x ≤ c.rhs

/-- How much has to be added to the left side, where it may be added. -/
def shortfall : Rat :=
  match c.sign with
  | .atMost => 0
  | .atLeast => max 0 (c.rhs - c.lhs x)
  | .equal => max 0 (c.rhs - c.lhs x)

/-- What the left side leaves of the right side, where a slack takes it up. -/
def slack : Rat :=
  match c.sign with
  | .atMost => c.rhs - c.lhs x
  | .atLeast => 0
  | .equal => 0

/-- By how much the left side exceeds the right side, where a surplus takes it up. -/
def surplus : Rat :=
  match c.sign with
  | .atMost => 0
  | .atLeast => max 0 (c.lhs x - c.rhs)
  | .equal => 0

theorem shortfall_nonneg : 0 ≤ c.shortfall x := by
  unfold shortfall
  split <;> simp

theorem surplus_nonneg : 0 ≤ c.surplus x := by
  unfold surplus
  split <;> simp

variable {x} in
theorem slack_nonneg (h : c.Relaxed x) : 0 ≤ c.slack x := by
  unfold Relaxed at h
  unfold slack
  cases hs : c.sign <;> simp only [hs] at h ⊢
  · exact sub_nonneg.mpr h
  · exact le_refl _
  · exact le_refl _

variable {x} in
/-- Slack, surplus and shortfall make up for the difference of the two sides. -/
theorem lhs_add_eq_rhs (h : c.Relaxed x) :
    c.lhs x + (c.slack x - c.surplus x + c.shortfall x) = c.rhs := by
  unfold Relaxed at h
  unfold slack surplus shortfall
  cases hs : c.sign <;> simp only [hs] at h ⊢
  · ring
  · rcases le_total (c.lhs x) c.rhs with hle | hle
    · rw [max_eq_left (sub_nonpos.mpr hle), max_eq_right (sub_nonneg.mpr hle)]
      ring
    · rw [max_eq_right (sub_nonneg.mpr hle), max_eq_left (sub_nonpos.mpr hle)]
      ring
  · rw [max_eq_right (sub_nonneg.mpr h)]
    ring

theorem holds_iff_relaxed : c.Holds x ↔ c.Relaxed x ∧ c.shortfall x = 0 := by
  unfold Holds Relaxed shortfall
  split
  · simp
  · simp
  · rw [max_eq_left_iff, sub_nonpos]
    exact ⟨fun h => ⟨h.le, h.ge⟩, fun h => le_antisymm h.1 h.2⟩

variable {c x}

/-- What the check of a constraint says. -/
theorem isSatisfied_iff {tol : Rat} :
    c.isSatisfied x tol = true ↔
      match c.sign with
      | .atMost => c.lhs x ≤ c.rhs + tol
      | .atLeast => c.rhs - tol ≤ c.lhs x
      | .equal => -tol ≤ c.lhs x - c.rhs ∧ c.lhs x - c.rhs ≤ tol := by
  unfold isSatisfied
  cases c.sign <;> simp only <;> rw [decide_eq_true_iff]
  rw [Scalar.abs_le_iff]

/-- A constraint that falls short by no more than a tolerance is satisfied up to it. -/
theorem isSatisfied_of_relaxed {tol : Rat} (h0 : 0 ≤ tol) (hr : c.Relaxed x)
    (hs : c.shortfall x ≤ tol) : c.isSatisfied x tol = true := by
  unfold Relaxed at hr
  unfold shortfall at hs
  rw [isSatisfied_iff]
  cases hsign : c.sign <;> simp only [hsign, max_le_iff] at hr hs ⊢
  · linarith
  · linarith [hs.2]
  · constructor <;> linarith [hs.2]

/-- With tolerance zero the check decides whether a constraint holds. -/
theorem isSatisfied_zero_iff : c.isSatisfied x 0 = true ↔ c.Holds x := by
  rw [isSatisfied_iff, Holds]
  cases c.sign <;> simp only
  · rw [add_zero]
  · rw [sub_zero]
  · rw [neg_zero, sub_nonneg, sub_nonpos]
    exact ⟨fun h => le_antisymm h.2 h.1, fun h => ⟨h.ge, h.le⟩⟩

end Constraint

namespace Problem

variable (p : Problem Rat) (x : List Rat)

/-- The objective and every constraint have one coefficient per variable. -/
structure Regular : Prop where
  objective : p.objective.length = p.numVars
  constraints : ∀ c ∈ p.constraints, c.coefficients.length = p.numVars

/-- A point with nonnegative coordinates that satisfies every constraint. -/
structure Feasible : Prop where
  length : x.length = p.numVars
  nonneg : ∀ a ∈ x, 0 ≤ a
  holds : ∀ c ∈ p.constraints, c.Holds x

/-- A point with nonnegative coordinates that satisfies every constraint once enough is added. -/
structure Relaxed : Prop where
  length : x.length = p.numVars
  nonneg : ∀ a ∈ x, 0 ≤ a
  relaxed : ∀ c ∈ p.constraints, c.Relaxed x

/-- A constraint by its number. -/
def constraintAt (p : Problem Rat) (i : Nat) : Constraint Rat :=
  p.constraints.getD i ⟨[], .equal, 0⟩

/-- How much has to be added to the left sides of all constraints. -/
def shortfall : Rat :=
  ∑ i ∈ Finset.range p.constraints.length, (p.constraintAt i).shortfall x

/-- The value of the objective, turned so that greater is better. -/
def gain : Rat := p.sense.orient (p.objectiveAt x)

variable {p x}

theorem constraintAt_of_lt {i : Nat} (h : i < p.constraints.length) :
    p.constraintAt i = p.constraints[i] :=
  List.getD_eq_getElem _ _ h

theorem getD_rhs (p : Problem Rat) (i : Nat) :
    (p.constraints.map (·.rhs)).getD i 0 = (p.constraintAt i).rhs :=
  List.getD_map p.constraints ⟨[], .equal, 0⟩ (·.rhs)

theorem forall_mem_constraints {P : Constraint Rat → Prop} :
    (∀ c ∈ p.constraints, P c) ↔ ∀ i < p.constraints.length, P (p.constraintAt i) := by
  constructor
  · intro h i hi
    rw [constraintAt_of_lt hi]
    exact h _ (List.getElem_mem hi)
  · intro h c hc
    obtain ⟨i, hi, rfl⟩ := List.getElem_of_mem hc
    rw [← constraintAt_of_lt hi]
    exact h i hi

theorem shortfall_nonneg : 0 ≤ p.shortfall x :=
  Finset.sum_nonneg fun i _ => (p.constraintAt i).shortfall_nonneg x

/-- **A point is feasible when it is relaxed and lacks nothing.** -/
theorem feasible_iff_relaxed : p.Feasible x ↔ p.Relaxed x ∧ p.shortfall x = 0 := by
  have hs : p.shortfall x = 0 ↔ ∀ c ∈ p.constraints, c.shortfall x = 0 := by
    rw [shortfall,
      Finset.sum_eq_zero_iff_of_nonneg fun i _ => (p.constraintAt i).shortfall_nonneg x,
      forall_mem_constraints]
    simp only [Finset.mem_range]
  rw [hs]
  constructor
  · intro h
    exact ⟨⟨h.length, h.nonneg, fun c hc => ((c.holds_iff_relaxed x).mp (h.holds c hc)).1⟩,
      fun c hc => ((c.holds_iff_relaxed x).mp (h.holds c hc)).2⟩
  · rintro ⟨h, h0⟩
    exact ⟨h.length, h.nonneg, fun c hc => (c.holds_iff_relaxed x).mpr ⟨h.relaxed c hc, h0 c hc⟩⟩

theorem isFeasible_iff {tol : Rat} :
    p.isFeasible x tol = true ↔
      (∀ a ∈ x, -tol ≤ a) ∧ ∀ c ∈ p.constraints, c.isSatisfied x tol = true := by
  simp [isFeasible, not_lt]

/-- **With tolerance zero the check decides feasibility** of points with all coordinates. -/
theorem feasible_iff : p.Feasible x ↔ x.length = p.numVars ∧ p.isFeasible x 0 = true := by
  rw [isFeasible_iff, neg_zero]
  constructor
  · intro h
    exact ⟨h.length, h.nonneg, fun c hc => Constraint.isSatisfied_zero_iff.mpr (h.holds c hc)⟩
  · rintro ⟨hl, hn, hc⟩
    exact ⟨hl, hn, fun c hm => Constraint.isSatisfied_zero_iff.mp (hc c hm)⟩

instance : Decidable (p.Feasible x) := decidable_of_iff _ feasible_iff.symm

instance : Decidable p.Regular :=
  decidable_of_iff (p.objective.length = p.numVars ∧
    ∀ c ∈ p.constraints, c.coefficients.length = p.numVars)
    ⟨fun h => ⟨h.1, h.2⟩, fun h => ⟨h.objective, h.constraints⟩⟩

theorem gain_eq (p : Problem Rat) (x : List Rat) :
    p.gain x = Scalar.dot (Tableau.maximized p) x := by
  unfold gain Sense.orient Tableau.maximized objectiveAt
  cases p.sense with
  | maximize => rfl
  | minimize => exact (Scalar.dot_map_neg _ _).symm

theorem getD_maximized (p : Problem Rat) (j : Nat) :
    (Tableau.maximized p).getD j 0 = p.sense.orient (p.objective.getD j 0) := by
  unfold Tableau.maximized
  cases p.sense with
  | maximize => rfl
  | minimize =>
    have hm := List.getD_map (d := (0 : Rat)) (n := j) (f := fun a => -a) (l := p.objective)
    rwa [neg_zero] at hm

theorem length_maximized (h : p.Regular) : (Tableau.maximized p).length = p.numVars := by
  unfold Tableau.maximized
  split
  · exact h.objective
  · rw [List.length_map]
    exact h.objective

/-- A point without a positive coordinate missing: every coordinate by number is nonnegative. -/
theorem getD_nonneg (h : ∀ a ∈ x, 0 ≤ a) (j : Nat) : 0 ≤ x.getD j 0 := by
  rcases Nat.lt_or_ge j x.length with hj | hj
  · rw [List.getD_eq_getElem _ _ hj]
    exact h _ (List.getElem_mem hj)
  · rw [List.getD_eq_default _ _ hj]

end Problem

end TableauSimplex
