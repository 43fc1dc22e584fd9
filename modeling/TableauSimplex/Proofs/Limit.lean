import Mathlib
import TableauSimplex.Limit

/-!
# Limits in order

A limit is reached by the counts that are no less than its number (`Limit.reachedBy_iff`), and it
grants the steps up to the next whole number, after which it is reached
(`Limit.reachedBy_of_steps_le`). So limits are in the order of their numbers (`Limit.le_of_value`).
-/

namespace TableauSimplex

namespace Limit

variable {limit limit' : Limit} {count : Nat}

/-- A limit is no greater than another one: a count that reaches the other one reaches it too, and
it grants no more steps. -/
structure Le (limit limit' : Limit) : Prop where
  reachedBy : ∀ count, limit'.reachedBy count = true → limit.reachedBy count = true
  steps : limit.steps ≤ limit'.steps

theorem reachedBy_iff : limit.reachedBy count = true ↔ limit.value ≤ count := decide_eq_true_iff

theorem reachedBy_whole_iff {n : Nat} : (whole n).reachedBy count = true ↔ n ≤ count := by
  rw [reachedBy_iff, value, Int.cast_natCast, Nat.cast_le]

theorem steps_whole (n : Nat) : (whole n).steps = n := by
  rw [steps, value, Rat.ceil_intCast, Int.toNat_natCast]

/-- **The steps that a limit grants are enough to reach it.** -/
theorem reachedBy_of_steps_le (h : limit.steps ≤ count) : limit.reachedBy count = true := by
  have hceil : limit.value.ceil ≤ count := Int.toNat_le.mp h
  exact reachedBy_iff.mpr (by exact_mod_cast Rat.ceil_le_iff.mp hceil)

/-- **Limits are in the order of their numbers.** -/
theorem le_of_value (h : limit.value ≤ limit'.value) : limit.Le limit' where
  reachedBy _ hreached := reachedBy_iff.mpr (h.trans (reachedBy_iff.mp hreached))
  steps := Int.toNat_le_toNat (Rat.ceil_le_iff.mpr (h.trans Rat.le_ceil))

end Limit

end TableauSimplex
