/-!
# Doubles taken apart

A finite double is a whole number times a power of two, with a sign. Everything that writes or
rounds a double starts from that exact value.

* `Binary.ofFloat`: the parts of a double, read off its bits.
* `Binary.toRat?`: the exact value, for every double but the infinities and not-a-number.
-/

namespace TableauSimplex

/-- What a double stands for: not-a-number, an infinity, or `± significand * 2 ^ exponent`. -/
inductive Binary where
  | nan
  | infinite (negative : Bool)
  | finite (negative : Bool) (significand : Nat) (exponent : Int)
  deriving Repr, DecidableEq

namespace Binary

/-- The least exponent of a double: the spacing of the values next to zero is `2 ^ (-1074)`. -/
def leastExponent : Int := -1074

/-- The hidden bit of a normal double. -/
def hiddenBit : Nat := 1 <<< 52

/-- The parts of a double: one bit of sign, eleven of exponent, fifty-two of significand. -/
def ofFloat (x : Float) : Binary :=
  let bits := x.toBits.toNat
  let negative := bits >>> 63 == 1
  let exponent := (bits >>> 52) % 2048
  let fraction := bits % hiddenBit
  if exponent == 2047 then
    if fraction == 0 then infinite negative else nan
  else if exponent == 0 then finite negative fraction leastExponent
  else finite negative (hiddenBit + fraction) (leastExponent + (exponent - 1 : Int))

/-- The rational `significand * 2 ^ exponent`. -/
def magnitude (significand : Nat) (exponent : Int) : Rat :=
  if 0 ≤ exponent then (significand <<< exponent.toNat : Nat)
  else mkRat significand (1 <<< (-exponent).toNat)

/-- The exact value, if there is one. Both zeros have the value zero. -/
def toRat? : Binary → Option Rat
  | finite false m e => some (magnitude m e)
  | finite true m e => some (-magnitude m e)
  | _ => none

end Binary

end TableauSimplex
