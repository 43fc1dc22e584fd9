import Mathlib
import TableauSimplex.Number.Approximation
import TableauSimplex.Proofs.Double
import TableauSimplex.Proofs.Problem

/-!
# The nearest fraction

Two fractions with the cross product one leave no room: a rational strictly between them has a
denominator no less than both of theirs together (`add_le_den_of_between`). So where two such
fractions lie on the two sides of a number and only their denominators together exceed a bound, one
of them is nearest among all rationals with a denominator within the bound (`Brackets.nearest`).

The expansion of a number as a continued fraction ends in such a pair. A step turns the sign of the
cross product of the two convergents, and keeps the number a mean of the two, weighted with what is
left to expand (`Expands.step`). So the last convergent within the bound and the furthest
semiconvergent within it are on the two sides of the number when the expansion stops
(`Expands.brackets`).

* `IsNearest`: a rational with a bounded denominator to which no other one is preferred.
* `isNearest_bestApproximation`: it is found for every rational and every positive bound.
* `fractionText_nearest`: a double is shown as the fraction nearest to its exact value, in lowest
  terms.
-/

namespace TableauSimplex

variable {bound : Nat} {x y : Rat}

/-- The denominator of `r` is within the bound, and no rational of which this holds is nearer
to `x`. -/
structure IsNearest (bound : Nat) (x r : Rat) : Prop where
  den_le : r.den ≤ bound
  abs_sub_le : ∀ y : Rat, y.den ≤ bound → |r - x| ≤ |y - x|

theorem isNearest_self (h : x.den ≤ bound) : IsNearest bound x x where
  den_le := h
  abs_sub_le y _ := by
    rw [sub_self, abs_zero]
    exact abs_nonneg _

/-! ## Fractions with the cross product one -/

/-- The value of a numerator and a denominator. -/
def fraction (f : Int × Int) : Rat := f.1 / f.2

section Fractions

variable {f g low high : Int × Int}

theorem fraction_le_iff (hf : 0 < f.2) : fraction f ≤ x ↔ f.1 * x.den ≤ x.num * f.2 := by
  have hf' : (0 : Rat) < f.2 := Int.cast_pos.mpr hf
  have hx : (0 : Rat) < x.den := Nat.cast_pos.mpr x.den_pos
  conv_lhs => rw [fraction, ← Rat.num_div_den x, div_le_div_iff₀ hf' hx]
  norm_cast

theorem le_fraction_iff (hf : 0 < f.2) : x ≤ fraction f ↔ x.num * f.2 ≤ f.1 * x.den := by
  have hf' : (0 : Rat) < f.2 := Int.cast_pos.mpr hf
  have hx : (0 : Rat) < x.den := Nat.cast_pos.mpr x.den_pos
  conv_lhs => rw [fraction, ← Rat.num_div_den x, div_le_div_iff₀ hx hf']
  norm_cast

/-- Lowest terms only lower a denominator. -/
theorem den_fraction_le (hf : 0 < f.2) : (fraction f).den ≤ f.2 := by
  rw [fraction, ← Rat.divInt_eq_div]
  exact Int.le_of_dvd hf (Rat.den_dvd f.1 f.2)

/-- **Nothing with a small denominator is between** two fractions with the cross product one. -/
theorem add_le_den_of_between (hlow : 0 < low.2) (hhigh : 0 < high.2)
    (hcross : high.1 * low.2 - low.1 * high.2 = 1) (hy : fraction low < y)
    (hy' : y < fraction high) : low.2 + high.2 ≤ y.den := by
  have habove : 1 ≤ y.num * low.2 - low.1 * y.den := by
    have h := (le_fraction_iff hlow).not.mp hy.not_ge
    omega
  have hbelow : 1 ≤ high.1 * y.den - y.num * high.2 := by
    have h := (fraction_le_iff hhigh).not.mp hy'.not_ge
    omega
  calc low.2 + high.2
      ≤ low.2 * (high.1 * y.den - y.num * high.2) +
          high.2 * (y.num * low.2 - low.1 * y.den) :=
        add_le_add (le_mul_of_one_le_right hlow.le hbelow) (le_mul_of_one_le_right hhigh.le habove)
    _ = (high.1 * low.2 - low.1 * high.2) * y.den := by ring
    _ = y.den := by rw [hcross, one_mul]

/-- Two fractions with the cross product one on the two sides of a number, whose denominators
together exceed the bound. -/
structure Brackets (bound : Nat) (x : Rat) (low high : Int × Int) : Prop where
  low_pos : 0 < low.2
  high_pos : 0 < high.2
  cross_eq : high.1 * low.2 - low.1 * high.2 = 1
  low_le : fraction low ≤ x
  le_high : x ≤ fraction high
  bound_lt : bound < low.2 + high.2

/-- A mean of two fractions, weighted with whole numbers, is between them. -/
theorem Brackets.of_mean {u v : Int} (hlow : 0 < low.2) (hhigh : 0 < high.2)
    (hcross : high.1 * low.2 - low.1 * high.2 = 1) (hu : 0 ≤ u) (hv : 0 ≤ v)
    (hnum : low.1 * u + high.1 * v = x.num) (hden : low.2 * u + high.2 * v = x.den)
    (hbound : bound < low.2 + high.2) : Brackets bound x low high where
  low_pos := hlow
  high_pos := hhigh
  cross_eq := hcross
  low_le := by
    rw [fraction_le_iff hlow, ← hnum, ← hden]
    linear_combination hv - v * hcross
  le_high := by
    rw [le_fraction_iff hhigh, ← hnum, ← hden]
    linear_combination hu - u * hcross
  bound_lt := hbound

/-- **One of two fractions that bracket a number is nearest** to it: a rational that is not between
them is beyond one of them. -/
theorem Brackets.nearest (h : Brackets bound x low high) (hy : y.den ≤ bound) :
    |fraction low - x| ≤ |y - x| ∨ |fraction high - x| ≤ |y - x| := by
  rcases le_or_gt y (fraction low) with hlow | hlow
  · left
    rw [abs_sub_comm, abs_sub_comm y, abs_of_nonneg (sub_nonneg.mpr h.low_le),
      abs_of_nonneg (sub_nonneg.mpr (hlow.trans h.low_le))]
    exact sub_le_sub_left hlow x
  rcases le_or_gt (fraction high) y with hhigh | hhigh
  · right
    rw [abs_of_nonneg (sub_nonneg.mpr h.le_high),
      abs_of_nonneg (sub_nonneg.mpr (h.le_high.trans hhigh))]
    exact sub_le_sub_right hhigh x
  · have hden := add_le_den_of_between h.low_pos h.high_pos h.cross_eq hlow hhigh
    have hbound := h.bound_lt
    omega

/-- The nearer of two fractions is nearest if one of them is. -/
theorem isNearest_nearer (hf : 0 < f.2) (hf' : f.2 ≤ bound) (hg : 0 < g.2) (hg' : g.2 ≤ bound)
    (h : ∀ y : Rat, y.den ≤ bound → |fraction f - x| ≤ |y - x| ∨ |fraction g - x| ≤ |y - x|) :
    IsNearest bound x
      (if |fraction f - x| ≤ |fraction g - x| then fraction f else fraction g) := by
  split
  · rename_i hle
    refine ⟨?_, fun y hy => (h y hy).elim id hle.trans⟩
    exact_mod_cast (den_fraction_le hf).trans hf'
  · rename_i hlt
    refine ⟨?_, fun y hy => (h y hy).elim (not_le.mp hlt).le.trans id⟩
    exact_mod_cast (den_fraction_le hg).trans hg'

end Fractions

/-! ## The expansion -/

namespace Convergents

variable {c : Convergents} {num : Int} {den : Nat}

/-- The cross product of the two convergents. -/
def cross (c : Convergents) : Int := c.last.1 * c.before.2 - c.before.1 * c.last.2

theorem cross_next (a : Int) : cross ⟨c.last, c.next a⟩ = -c.cross := by
  rw [cross, cross, next]
  ring

/-- The two convergents come from an expansion of `x` that has `num / den` left to expand: both
denominators are within the bound, and `x` is the mean of the two with the weights `den`
and `num`. -/
structure Expands (bound : Nat) (x : Rat) (c : Convergents) (num : Int) (den : Nat) : Prop where
  cross_eq : c.cross = 1 ∨ c.cross = -1
  before_nonneg : 0 ≤ c.before.2
  before_le : c.before.2 ≤ bound
  last_pos : 0 < c.last.2
  last_le : c.last.2 ≤ bound
  den_lt : den < num
  num_eq : c.before.1 * den + c.last.1 * num = x.num
  den_eq : c.before.2 * den + c.last.2 * num = x.den

private theorem toNat_emod_eq (num : Int) (hden : den ≠ 0) :
    ((num % den).toNat : Int) = num - num / den * den := by
  rw [Int.toNat_of_nonneg (Int.emod_nonneg num (Int.natCast_ne_zero.mpr hden)), Int.emod_def,
    mul_comm]

private theorem toNat_emod_lt (num : Int) (hden : den ≠ 0) : ((num % den).toNat : Int) < den := by
  have := Int.emod_lt_of_pos num (Int.natCast_pos.mpr (Nat.pos_of_ne_zero hden))
  omega

/-- The first convergent is the whole part, whatever its sign. -/
theorem expands_whole (hbound : 0 < bound) (x : Rat) :
    Expands bound x ⟨(1, 0), (x.num / x.den, 1)⟩ x.den (x.num % x.den).toNat where
  cross_eq := .inr (by simp [cross])
  before_nonneg := le_rfl
  before_le := Int.natCast_nonneg bound
  last_pos := Int.one_pos
  last_le := Int.natCast_pos.mpr hbound
  den_lt := toNat_emod_lt x.num x.den_nz
  num_eq := by
    rw [toNat_emod_eq x.num x.den_nz]
    ring
  den_eq := by ring

/-- **A step of the expansion** within the bound. -/
theorem Expands.step (h : Expands bound x c num den) (hden : den ≠ 0)
    (hnext : (c.next (num / den)).2 ≤ bound) :
    Expands bound x ⟨c.last, c.next (num / den)⟩ den (num % den).toNat where
  cross_eq := by
    rw [cross_next, neg_inj, neg_eq_iff_eq_neg]
    exact h.cross_eq.symm
  before_nonneg := h.last_pos.le
  before_le := h.last_le
  last_pos := by
    -- after the whole part every partial quotient is positive
    have hlt := h.den_lt
    have hquotient : 0 < num / den := (Int.le_ediv_iff_mul_le (by omega)).mpr (by omega)
    exact Int.add_pos_of_nonneg_of_pos h.before_nonneg (Int.mul_pos hquotient h.last_pos)
  last_le := hnext
  den_lt := toNat_emod_lt num hden
  num_eq := by
    rw [toNat_emod_eq num hden, next]
    linear_combination h.num_eq
  den_eq := by
    rw [toNat_emod_eq num hden, next]
    linear_combination h.den_eq

/-- A number whose own denominator exceeds the bound is not expanded to the end: otherwise it would
be the last convergent. -/
theorem Expands.den_ne_zero (h : Expands bound x c num den) (hx : bound < x.den) : den ≠ 0 := by
  rintro rfl
  have hnum := h.num_eq
  have hden := h.den_eq
  rw [Int.natCast_zero, mul_zero, zero_add] at hnum hden
  have heq : fraction c.last = x := by
    refine le_antisymm ((fraction_le_iff h.last_pos).mpr (le_of_eq ?_))
      ((le_fraction_iff h.last_pos).mpr (le_of_eq ?_))
    · rw [← hnum, ← hden]
      ring
    · rw [← hnum, ← hden]
      ring
  have hle := den_fraction_le h.last_pos
  have hlast := h.last_le
  rw [heq] at hle
  omega

/-- **The expansion stops before the first convergent beyond the bound.** -/
theorem Expands.expand (h : Expands bound x c num den) (hx : bound < x.den) :
    ∃ num' den', Expands bound x (expand bound c num den) num' den' ∧ den' ≠ 0 ∧
      bound < ((expand bound c num den).next (num' / den')).2 := by
  fun_induction TableauSimplex.expand bound c num den with
  | case1 c num => exact absurd rfl (h.den_ne_zero hx)
  | case2 c num den hden following hstop => exact ⟨num, den, h, hden, hstop⟩
  | case3 c num den hden following hgo ih => exact ih (h.step hden (not_lt.mp hgo))

/-- The furthest semiconvergent within the bound: the last convergent is taken as often as the bound
admits. -/
def furthest (bound : Nat) (c : Convergents) : Int × Int :=
  c.next ((bound - c.before.2) / c.last.2)

theorem Expands.furthest_le (h : Expands bound x c num den) : (c.furthest bound).2 ≤ bound := by
  have := Int.ediv_mul_le (bound - c.before.2) h.last_pos.ne'
  rw [furthest, next]
  omega

theorem Expands.lt_furthest_add (h : Expands bound x c num den) :
    bound < (c.furthest bound).2 + c.last.2 := by
  have := Int.lt_ediv_add_one_mul_self (bound - c.before.2) h.last_pos
  rw [furthest, next]
  linarith

theorem Expands.furthest_pos (h : Expands bound x c num den) : 0 < (c.furthest bound).2 := by
  have := h.lt_furthest_add
  have := h.last_le
  omega

/-- The semiconvergent takes the last convergent no more often than the next convergent would. -/
theorem Expands.furthest_weight (h : Expands bound x c num den) (hden : den ≠ 0)
    (hstop : bound < (c.next (num / den)).2) :
    (bound - c.before.2) / c.last.2 * den ≤ num := by
  have hquotient : (bound - c.before.2) / c.last.2 < num / den := by
    have hle := Int.ediv_mul_le (bound - c.before.2) h.last_pos.ne'
    have hlt : bound < c.before.2 + num / den * c.last.2 := hstop
    exact lt_of_mul_lt_mul_right (by linarith) h.last_pos.le
  calc (bound - c.before.2) / c.last.2 * den
      ≤ num / den * den := mul_le_mul_of_nonneg_right hquotient.le (Int.natCast_nonneg den)
    _ ≤ num := Int.ediv_mul_le num (Int.natCast_ne_zero.mpr hden)

/-- **When the expansion stops,** the last convergent and the furthest semiconvergent are on the two
sides of the number. -/
theorem Expands.brackets (h : Expands bound x c num den) (hden : den ≠ 0)
    (hstop : bound < (c.next (num / den)).2) :
    Brackets bound x c.last (c.furthest bound) ∨ Brackets bound x (c.furthest bound) c.last := by
  set k := (bound - c.before.2) / c.last.2 with hk
  have hcross : (c.furthest bound).1 * c.last.2 - c.last.1 * (c.furthest bound).2 = -c.cross :=
    cross_next k
  have hweight : 0 ≤ num - k * den := sub_nonneg.mpr (h.furthest_weight hden hstop)
  have hweight' : (0 : Int) ≤ den := Int.natCast_nonneg den
  have hnum : c.last.1 * (num - k * den) + (c.furthest bound).1 * den = x.num := by
    rw [furthest, ← hk, next]
    linear_combination h.num_eq
  have hden : c.last.2 * (num - k * den) + (c.furthest bound).2 * den = x.den := by
    rw [furthest, ← hk, next]
    linear_combination h.den_eq
  rcases h.cross_eq with hone | hone
  · right
    rw [add_comm] at hnum hden
    exact .of_mean h.furthest_pos h.last_pos (by linarith) hweight' hweight hnum hden
      h.lt_furthest_add
  · left
    exact .of_mean h.last_pos h.furthest_pos (by linarith) hweight hweight' hnum hden
      (by linarith [h.lt_furthest_add])

end Convergents

open Convergents

/-! ## The nearest fraction -/

/-- The convergents at which the expansion of a number stops. -/
def lastConvergents (bound : Nat) (x : Rat) : Convergents :=
  expand bound ⟨(1, 0), (x.num / x.den, 1)⟩ x.den (x.num % x.den).toNat

theorem bestApproximation_eq (hbound : 0 < bound) (hx : bound < x.den) :
    bestApproximation bound x =
      if |fraction (lastConvergents bound x).last - x| ≤
          |fraction ((lastConvergents bound x).furthest bound) - x|
      then fraction (lastConvergents bound x).last
      else fraction ((lastConvergents bound x).furthest bound) := by
  have hfirst : expand bound start x.num x.den = lastConvergents bound x := by
    have hnext : start.next (x.num / x.den) = (x.num / x.den, 1) := by simp [start, next]
    rw [expand, dif_neg x.den_nz, hnext, if_neg (not_lt.mpr (Int.natCast_pos.mpr hbound))]
    rfl
  rw [bestApproximation, if_neg hx.not_ge, hfirst, ← Scalar.abs_eq, ← Scalar.abs_eq]
  rfl

/-- **The nearest rational with a bounded denominator is found.** -/
theorem isNearest_bestApproximation (hbound : 0 < bound) (x : Rat) :
    IsNearest bound x (bestApproximation bound x) := by
  by_cases hx : x.den ≤ bound
  · rw [bestApproximation, if_pos hx]
    exact isNearest_self hx
  · rw [not_le] at hx
    obtain ⟨num, den, hlast, hden, hstop⟩ := (expands_whole hbound x).expand hx
    rw [bestApproximation_eq hbound hx]
    refine isNearest_nearer hlast.last_pos hlast.last_le hlast.furthest_pos hlast.furthest_le
      fun y hy => ?_
    rcases hlast.brackets hden hstop with hbrackets | hbrackets
    · exact hbrackets.nearest hy
    · exact (hbrackets.nearest hy).symm

/-! ## The text of a double -/

/-- A rational is written with a minus sign where it is negative, and with a slash where it is not
whole. -/
theorem rationalText_eq (r : Rat) : rationalText r =
    signText (r.num < 0) ++ toString r.num.natAbs ++
      (if r.den = 1 then "" else "/" ++ toString r.den) := by
  have hnum : toString r.num = signText (r.num < 0) ++ toString r.num.natAbs := by
    cases r.num with
    | ofNat n =>
      have hsign : ¬Int.ofNat n < 0 := (Int.natCast_nonneg n).not_gt
      rw [decide_eq_false hsign]
      exact String.empty_append.symm
    | negSucc n =>
      rw [decide_eq_true (Int.negSucc_lt_zero n)]
      rfl
  rw [rationalText, hnum]
  by_cases hden : r.den = 1
  · simp [hden]
  · simp [hden, String.append_assoc]

/-- Values are shown from the double `1e-12` on. -/
theorem leastShown_eq : leastShown = exactValue 1e-12 := by decide +kernel

/-- **A double is shown as the nearest fraction** whose denominator is within a million, from the
double `1e-12` on: in lowest terms, with a minus sign exactly where the fraction is negative, and
without a slash where it is whole. -/
theorem fractionText_nearest {x : Float} (hfinite : x.isFinite = true)
    (hx : exactValue 1e-12 ≤ |exactValue x|) :
    ∃ (p : Int) (q : Nat), 1 ≤ q ∧ q ≤ 10 ^ 6 ∧ p.natAbs.Coprime q ∧
      fractionText x = signText (p < 0) ++ toString p.natAbs ++
        (if q = 1 then "" else "/" ++ toString q) ∧
      ∀ y : Rat, y.den ≤ 10 ^ 6 → |(p / q : Rat) - exactValue x| ≤ |y - exactValue x| := by
  have hbound : 0 < displayBound := by decide
  have hnearest := isNearest_bestApproximation hbound (exactValue x)
  set best := bestApproximation displayBound (exactValue x)
  refine ⟨best.num, best.den, best.den_pos, hnearest.den_le, best.reduced, ?_, ?_⟩
  · have hshown : ¬(exactValue x).abs < leastShown := by
      rw [← leastShown_eq, ← Scalar.abs_eq] at hx
      exact hx.not_gt
    rw [← rationalText_eq, fractionText, toRat?_ofFloat hfinite]
    exact if_neg hshown
  · rw [Rat.num_div_den]
    exact hnearest.abs_sub_le

/-- A double next to minus a half turn. The last convergent for it is `-1146408/364913`, and the
furthest semiconvergent, `-3126535/995207`, is nearer. -/
theorem fractionText_nearest_halfTurn :
    Float.isFinite (-3.141592653589793) = true ∧
      exactValue 1e-12 ≤ |exactValue (-3.141592653589793)| ∧
      fractionText (-3.141592653589793) = "-3126535/995207" ∧
      ∃ (p : Int) (q : Nat), 1 ≤ q ∧ q ≤ 10 ^ 6 ∧ p.natAbs.Coprime q ∧
        fractionText (-3.141592653589793) = signText (p < 0) ++ toString p.natAbs ++
          (if q = 1 then "" else "/" ++ toString q) ∧
        ∀ y : Rat, y.den ≤ 10 ^ 6 → |(p / q : Rat) - exactValue (-3.141592653589793)| ≤
          |y - exactValue (-3.141592653589793)| := by
  have hfinite : Float.isFinite (-3.141592653589793) = true := by
    decide +kernel
  have hsize : exactValue 1e-12 ≤ |exactValue (-3.141592653589793)| := by
    decide +kernel
  exact ⟨hfinite, hsize, by decide +kernel, fractionText_nearest hfinite hsize⟩

end TableauSimplex
