import TableauSimplex.Number.Binary

/-!
# Decimals near a binary value

A positive binary value `m * 2 ^ q` is written with decimal digits in three ways, all decided in
exact arithmetic on natural numbers.

* `Decimal.shortest`: the fewest digits that read back as the same double, and of those the nearest.
* `Decimal.significant`: a given number of digits, a half going to the even neighbour.
* `Decimal.places`: a given number of places after the point, a half going to the even neighbour.
-/

namespace TableauSimplex

/-- The decimal `digits * 10 ^ exponent`. -/
structure Decimal where
  digits : Nat
  exponent : Int
  deriving Repr, DecidableEq

/-- The quotient rounded to the nearest whole number, a half going to the even neighbour. -/
def divRoundEven (num den : Nat) : Nat :=
  let q := num / den
  let r := num % den
  if 2 * r < den then q
  else if den < 2 * r then q + 1
  else if q % 2 == 0 then q else q + 1

namespace Decimal

/-- A fraction `num / den` of natural numbers equal to `m * 2 ^ q / 10 ^ k`. -/
private def overGrid (m : Nat) (q k : Int) : Nat × Nat :=
  ((m <<< q.toNat) * Nat.pow 10 (-k).toNat, (1 <<< (-q).toNat) * Nat.pow 10 k.toNat)

/-- Whether `10 ^ k ≤ m * 2 ^ q`. -/
private def reaches (m : Nat) (q k : Int) : Bool :=
  let (num, den) := overGrid m q k
  den ≤ num

/-- The exponent of the leading decimal digit of `m * 2 ^ q`, for `m` above zero. The binary
exponent gives it up to one, since `0.30103` is just above the decimal logarithm of two. -/
def leadingExponent (m : Nat) (q : Int) : Int :=
  let guess := ((m.log2 : Int) + q) * 30103 / 100000
  if reaches m q (guess + 1) then guess + 1
  else if reaches m q guess then guess
  else guess - 1

/-- The multiple of `10 ^ k` nearest to `m * 2 ^ q`. -/
def onGrid (m : Nat) (q k : Int) : Decimal :=
  let (num, den) := overGrid m q k
  ⟨divRoundEven num den, k⟩

/-- The decimal with `count` significant digits nearest to `m * 2 ^ q`. -/
def significant (count m : Nat) (q : Int) : Decimal :=
  onGrid m q (leadingExponent m q - count + 1)

/-- The decimal with `count` places after the point nearest to `m * 2 ^ q`. -/
def places (count m : Nat) (q : Int) : Decimal :=
  onGrid m q (-count)

/-! ## The shortest decimal -/

/-- The reals that round to the double `m * 2 ^ q`, in quarters of the unit `2 ^ q`. Below a power
of two the spacing halves, so the interval reaches only a quarter down. -/
private def lowerQuarters (m : Nat) (q : Int) : Nat :=
  if m == Binary.hiddenBit && q != Binary.leastExponent then 4 * m - 1 else 4 * m - 2

/-- Whether `c * 10 ^ k` rounds to the double `m * 2 ^ q`. The ends of the interval belong to it
when `m` is even. -/
def readsBack (m : Nat) (q : Int) (c : Nat) (k : Int) : Bool :=
  let (unit, grid) := overGrid 1 (q - 2) k
  let low := lowerQuarters m q * unit
  let high := (4 * m + 2) * unit
  let value := c * grid
  if m % 2 == 0 then low ≤ value && value ≤ high else low < value && value < high

/-- The grid point with the fewest digits that reads back as `m * 2 ^ q`, trying the value's two
neighbours on ever finer grids. Seventeen digits always suffice. -/
private def searchGrids (m : Nat) (q lead : Int) : Nat → Nat → Decimal
  | 0, count => onGrid m q (lead - count + 1)
  | fuel + 1, count =>
    let k := lead - count + 1
    let (num, den) := overGrid m q k
    let below := num / den
    let nearest := divRoundEven num den
    let other := if nearest == below then below + 1 else below
    if readsBack m q nearest k then ⟨nearest, k⟩
    else if readsBack m q other k then ⟨other, k⟩
    else searchGrids m q lead fuel (count + 1)

/-- The shortest decimal that reads back as the double `m * 2 ^ q`. -/
def shortest (m : Nat) (q : Int) : Decimal :=
  searchGrids m q (leadingExponent m q) 16 1

end Decimal

end TableauSimplex
