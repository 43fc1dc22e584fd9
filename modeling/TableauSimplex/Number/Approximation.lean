import TableauSimplex.Number.Style

/-!
# Rational approximation

A double that came out of a computation is shown as a whole number or a fraction: the rational with
a denominator up to a million that lies nearest to it.

* `bestApproximation`: the nearest rational with a bounded denominator, found among the convergents
  of the continued fraction.
* `fractionText`: a double as a whole number or a fraction in lowest terms.
-/

namespace TableauSimplex

/-- Two successive convergents `before` and `last` of a continued fraction, each as numerator and
denominator. -/
structure Convergents where
  before : Int × Int
  last : Int × Int
  deriving Repr, DecidableEq

namespace Convergents

/-- The two formal convergents every expansion starts from. -/
def start : Convergents := ⟨(0, 1), (1, 0)⟩

/-- The convergent that the partial quotient `a` leads to. -/
def next (c : Convergents) (a : Int) : Int × Int :=
  (c.before.1 + a * c.last.1, c.before.2 + a * c.last.2)

end Convergents

/-- Expands `num / den` as long as the denominators of the convergents stay within `bound`. -/
def expand (bound : Int) (c : Convergents) (num : Int) (den : Nat) : Convergents :=
  if _ : den = 0 then c
  else
    let following := c.next (num / den)
    if bound < following.2 then c
    else expand bound ⟨c.last, following⟩ den (num % den).toNat
termination_by den
decreasing_by
  have := Int.emod_lt_of_pos num (Int.natCast_pos.mpr (Nat.pos_of_ne_zero ‹_›))
  have := Int.emod_nonneg num (Int.natCast_ne_zero.mpr ‹_›)
  omega

/-- The rational with denominator at most `bound` that is nearest to `x`. The last convergent
within the bound competes with the furthest semiconvergent within it, and wins a tie. -/
def bestApproximation (bound : Nat) (x : Rat) : Rat :=
  if x.den ≤ bound then x
  else
    let c := expand bound Convergents.start x.num x.den
    let k := (bound - c.before.2) / c.last.2
    let semi : Rat := (c.before.1 + k * c.last.1 : Int) / (c.before.2 + k * c.last.2 : Int)
    let convergent : Rat := (c.last.1 : Int) / (c.last.2 : Int)
    if (convergent - x).abs ≤ (semi - x).abs then convergent else semi

/-- The bound on denominators in displayed fractions. -/
def displayBound : Nat := 1000000

/-- A rational in lowest terms, without a slash when it is whole. -/
def rationalText (r : Rat) : String :=
  if r.den == 1 then toString r.num else toString r.num ++ "/" ++ toString r.den

/-- The double nearest to `1e-12`. Values below it in size are shown as zero. -/
def leastShown : Rat := mkRat 4951760157141521 (1 <<< 92)

/-- A double as a whole number or a fraction. -/
def fractionText (x : Float) : String :=
  match (Binary.ofFloat x).toRat? with
  | none => exactText x
  | some r => if r.abs < leastShown then "0" else rationalText (bestApproximation displayBound r)

end TableauSimplex
