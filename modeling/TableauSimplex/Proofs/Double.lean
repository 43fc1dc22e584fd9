import Mathlib
import TableauSimplex.Number.Binary

/-!
# The exact value of a double

A double is taken apart by its bits (`Binary.ofFloat`). The model of doubles in which their
arithmetic is defined unpacks the same three fields: the greatest exponent marks what is not finite,
and the least one the values without a hidden bit. Field by field the two readings agree, so the
parts of a finite double have the value that it has in the model (`toRat?_ofFloat`).

* `exactValue`: sign, mantissa and exponent of an unpacked double as a rational.
-/

namespace TableauSimplex

open Float.Model

/-- The value of an unpacked double. What is not finite has none, and counts as zero. -/
def unpackedValue : UnpackedFloat → Rat
  | .finite sign mantissa exponent _ => (sign.apply mantissa : Int) * 2 ^ exponent
  | .zero _ | .infinity _ | .notANumber => 0

/-- The exact value of a finite double. -/
def exactValue (x : Float) : Rat := unpackedValue x.toModel.unpack

/-! ## The value of the parts -/

/-- A whole number from its sign and its size. -/
def signed (negative : Bool) (m : Nat) : Int := if negative then -m else m

theorem signed_zero (negative : Bool) : signed negative 0 = 0 := by cases negative <;> rfl

namespace Binary

theorem magnitude_eq (m : Nat) (e : Int) : magnitude m e = m * 2 ^ e := by
  rw [magnitude]
  split
  · rename_i he
    obtain ⟨n, rfl⟩ := Int.eq_ofNat_of_zero_le he
    rw [Nat.shiftLeft_eq, Int.toNat_natCast, zpow_natCast, Nat.cast_mul, Nat.cast_pow,
      Nat.cast_ofNat]
  · rename_i he
    obtain ⟨n, hn⟩ := Int.eq_ofNat_of_zero_le (by omega : 0 ≤ -e)
    obtain rfl : e = -n := by omega
    rw [neg_neg, Int.toNat_natCast, Nat.one_shiftLeft, Rat.mkRat_eq_div, zpow_neg, zpow_natCast,
      div_eq_mul_inv, Int.cast_natCast, Nat.cast_pow, Nat.cast_ofNat]

theorem toRat?_finite (negative : Bool) (m : Nat) (e : Int) :
    (finite negative m e).toRat? = some ((signed negative m : Rat) * 2 ^ e) := by
  cases negative
  · rw [toRat?, magnitude_eq, signed, if_neg Bool.false_ne_true, Int.cast_natCast]
  · rw [toRat?, magnitude_eq, signed, if_pos rfl, Int.cast_neg, Int.cast_natCast, neg_mul]

end Binary

/-! ## The fields -/

section Fields

variable {b : BitVec 64}

theorem toNat_unpackExponent :
    (@UnpackedFloat.unpackExponent .binary64 b).toNat = (b.toNat >>> 52) % 2048 := rfl

theorem toNat_unpackMantissa :
    (@UnpackedFloat.unpackMantissa .binary64 b).toNat = b.toNat % Binary.hiddenBit := rfl

theorem toNat_hidden_unpackMantissa :
    (1#1 ++ @UnpackedFloat.unpackMantissa .binary64 b).toNat =
      Binary.hiddenBit + b.toNat % Binary.hiddenBit := by
  rw [BitVec.toNat_append, ← Nat.shiftLeft_add_eq_or_of_lt (BitVec.isLt _)]
  rfl

theorem unpackExponent_eq_greatest_iff :
    @UnpackedFloat.unpackExponent .binary64 b = -1#_ ↔ (b.toNat >>> 52) % 2048 = 2047 :=
  BitVec.toNat_inj.symm

theorem unpackExponent_eq_least_iff :
    @UnpackedFloat.unpackExponent .binary64 b = 0#_ ↔ (b.toNat >>> 52) % 2048 = 0 :=
  BitVec.toNat_inj.symm

/-- The field of the exponent counts from one step below the least exponent. -/
theorem exponentBias_eq :
    (Format.binary64.exponentBias + (52 : Nat) : Int) = 1 - Binary.leastExponent := rfl

theorem apply_unpackSign (m : Nat) :
    (UnpackedFloat.Sign.ofBitVec (@UnpackedFloat.unpackSign .binary64 b)).apply m =
      signed (b.toNat >>> 63 == 1) m := by
  have hlt : b.toNat >>> 63 < 2 := by
    have := b.isLt
    omega
  have hsign : (@UnpackedFloat.unpackSign .binary64 b).toNat = b.toNat >>> 63 :=
    Nat.mod_eq_of_lt hlt
  rw [UnpackedFloat.Sign.ofBitVec, ← hsign]
  generalize @UnpackedFloat.unpackSign .binary64 b = sign
  rcases BitVec.eq_zero_or_eq_one sign with rfl | rfl <;> rfl

/-! ## The value of the fields -/

theorem exponent_ne_greatest (h : (UnpackedFloat.unpack .binary64 b).isFinite = true) :
    (b.toNat >>> 52) % 2048 ≠ 2047 := by
  intro hgreatest
  rw [UnpackedFloat.unpack, if_pos (unpackExponent_eq_greatest_iff.mpr hgreatest)] at h
  split at h <;> cases h

/-- Without a hidden bit the mantissa may be zero. The model keeps zeros apart, but they have the
value that the parts have. -/
theorem unpackedValue_of_least (hleast : (b.toNat >>> 52) % 2048 = 0) :
    unpackedValue (UnpackedFloat.unpack .binary64 b) =
      (signed (b.toNat >>> 63 == 1) (b.toNat % Binary.hiddenBit) : Rat) *
        2 ^ Binary.leastExponent := by
  have hgreatest : (b.toNat >>> 52) % 2048 ≠ 2047 := by omega
  rw [UnpackedFloat.unpack, if_neg (unpackExponent_eq_greatest_iff.not.mpr hgreatest),
    if_pos (unpackExponent_eq_least_iff.mpr hleast), ← toNat_unpackMantissa]
  split
  · rename_i hzero
    rw [unpackedValue, hzero, BitVec.toNat_zero, signed_zero, Int.cast_zero, zero_mul]
  · rw [unpackedValue, apply_unpackSign, toNat_unpackExponent, hleast, exponentBias_eq]
    rfl

theorem unpackedValue_of_between (hgreatest : (b.toNat >>> 52) % 2048 ≠ 2047)
    (hleast : (b.toNat >>> 52) % 2048 ≠ 0) :
    unpackedValue (UnpackedFloat.unpack .binary64 b) =
      (signed (b.toNat >>> 63 == 1) (Binary.hiddenBit + b.toNat % Binary.hiddenBit) : Rat) *
        (2 : Rat) ^ (Binary.leastExponent + (((b.toNat >>> 52) % 2048 : Nat) - 1 : Int)) := by
  rw [UnpackedFloat.unpack, if_neg (unpackExponent_eq_greatest_iff.not.mpr hgreatest),
    if_neg (unpackExponent_eq_least_iff.not.mpr hleast), unpackedValue,
    toNat_hidden_unpackMantissa, apply_unpackSign, toNat_unpackExponent, exponentBias_eq]
  congr 2
  ring

end Fields

/-! ## The value of a double -/

/-- **The parts of a finite double have its exact value.** -/
theorem toRat?_ofFloat {x : Float} (h : x.isFinite = true) :
    (Binary.ofFloat x).toRat? = some (exactValue x) := by
  have hgreatest : (x.toBits.toNat >>> 52) % 2048 ≠ 2047 := exponent_ne_greatest h
  by_cases hleast : (x.toBits.toNat >>> 52) % 2048 = 0
  · have hparts : Binary.ofFloat x = .finite (x.toBits.toNat >>> 63 == 1)
        (x.toBits.toNat % Binary.hiddenBit) Binary.leastExponent := by
      rw [Binary.ofFloat]
      simp only [beq_iff_eq, if_neg hgreatest, if_pos hleast]
    rw [hparts, Binary.toRat?_finite]
    exact congrArg some (unpackedValue_of_least hleast).symm
  · have hparts : Binary.ofFloat x = .finite (x.toBits.toNat >>> 63 == 1)
        (Binary.hiddenBit + x.toBits.toNat % Binary.hiddenBit)
        (Binary.leastExponent + (((x.toBits.toNat >>> 52) % 2048 : Nat) - 1 : Int)) := by
      rw [Binary.ofFloat]
      simp only [beq_iff_eq, if_neg hgreatest, if_neg hleast]
    rw [hparts, Binary.toRat?_finite]
    exact congrArg some (unpackedValue_of_between hgreatest hleast).symm

end TableauSimplex
