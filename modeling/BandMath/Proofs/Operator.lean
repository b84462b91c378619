/-
# Negation as a product

A remote executor has no negation; it multiplies by `-1`.  That is no approximation: the significand
of a product with `-1` is the significand of the other factor under more zeros, so nothing is
rounded away (`mul_neg_one`).  This holds of every float, zeros, infinities and NaN included.

A float is unpacked into a significand and an exponent that fit together: the exponent is the one
that rounding aims at for that significand (`targetExponent_of_unpack`).

The floats here are those of a model, in which a float is unpacked, multiplied exactly and rounded
once.  What has to be shown is that this rounding has nothing to do, and it has two parts: the exact
product with `-1` is the significand followed by zeros, under a lower exponent, and rounding such a
number shifts out these zeros and nothing else (`roundWithAccuracy_mul_two_pow`).  For this the
exponent that rounding aims at has to be the one that the factor had.  It is so for significands of
full length, and for shorter ones because they have the least exponent already.

NaN is not changed by the sign, as there is only one NaN in the model.
-/
import BandMath.Operator
import Mathlib.Algebra.Ring.Int.Defs
import Mathlib.Algebra.Ring.Nat

namespace BandMath

open Float.Model Float.Model.UnpackedFloat

/-! ## 1. Significands and exponents -/

theorem targetExponent_binary64 (t : Int) :
    Format.binary64.targetExponent t = max (t - 53) (-1074) := rfl

theorem two_pow_le_append (v : BitVec 52) :
    2 ^ 52 ≤ (1#1 ++ v).toNat ∧ (1#1 ++ v).toNat < 2 ^ 53 := by
  refine ⟨?_, (1#1 ++ v).isLt⟩
  rw [BitVec.toNat_append, ← Nat.shiftLeft_add_eq_or_of_lt v.isLt]
  exact Nat.le_add_right _ _

/-- A significand of full length keeps its exponent. -/
theorem targetExponent_normal {m : Nat} {e : Int} (hm : 2 ^ 52 ≤ m) (hm' : m < 2 ^ 53)
    (he : -1074 ≤ e) : Format.binary64.targetExponent (totalExponent m e) = e := by
  have hlog : m.log2 = 52 := (Nat.log2_eq_iff (by omega)).mpr ⟨hm, hm'⟩
  rw [targetExponent_binary64, totalExponent, hlog]
  omega

/-- A shorter significand has the least exponent. -/
theorem targetExponent_subnormal {m : Nat} (hm : 0 < m) (hm' : m < 2 ^ 52) :
    Format.binary64.targetExponent (totalExponent m (-1074)) = -1074 := by
  have hlog : m.log2 < 52 := (Nat.log2_lt (by omega)).mpr hm'
  rw [targetExponent_binary64, totalExponent]
  omega

/-- Rounding aims at the exponent that unpacking gives. -/
theorem targetExponent_of_unpack {x : Float.Model} {s : Sign} {m : Nat} {e : Int} {hm : 0 < m}
    (h : x.unpack = .finite s m e hm) :
    Format.binary64.targetExponent (totalExponent m e) = e := by
  unfold Float.Model.unpack UnpackedFloat.unpack at h
  dsimp only at h
  rcases ite_eq_iff.mp h with ⟨-, h⟩ | ⟨-, h⟩
  · rcases ite_eq_iff.mp h with ⟨-, h⟩ | ⟨-, h⟩
    · cases h
    · cases h
  · rcases ite_eq_iff.mp h with ⟨hzero, h⟩ | ⟨hne, h⟩
    · rcases dite_eq_iff.mp h with ⟨_, h⟩ | ⟨_, h⟩
      · cases h
      · obtain ⟨-, rfl, rfl⟩ := UnpackedFloat.finite.inj h
        rw [hzero]
        exact targetExponent_subnormal hm (BitVec.isLt _)
    · obtain ⟨-, rfl, rfl⟩ := UnpackedFloat.finite.inj h
      obtain ⟨hle, hlt⟩ := two_pow_le_append
        (@unpackMantissa Format.binary64 x.toBits.toBitVec)
      refine targetExponent_normal hle hlt ?_
      have hpos : 0 < (@unpackExponent Format.binary64 x.toBits.toBitVec).toNat :=
        Nat.pos_of_ne_zero fun hz => hne (BitVec.eq_of_toNat_eq hz)
      have hbias : Format.binary64.exponentBias = 1023 := rfl
      rw [hbias]
      omega

/-! ## 2. Zeros below a significand -/

theorem log2_mul_two_pow {m : Nat} (hm : 0 < m) (n : Nat) : (m * 2 ^ n).log2 = m.log2 + n := by
  induction n with
  | zero => rw [Nat.pow_zero, Nat.mul_one, Nat.add_zero]
  | succ n ih =>
    have hpos : m * 2 ^ n ≠ 0 := Nat.mul_ne_zero (by omega) (by simp)
    rw [Nat.pow_succ, ← Nat.mul_assoc, Nat.mul_comm _ 2, Nat.log2_two_mul hpos, ih, Nat.add_assoc]

/-- Zeros that are shifted out leave nothing behind. -/
theorem shiftRight_mul_two_pow (n m : Nat) :
    ((⟨m * 2 ^ n, false, false⟩ : ExtendedMantissa) >>> n) = ⟨m, false, false⟩ := by
  induction n generalizing m with
  | zero => rw [Nat.pow_zero, Nat.mul_one]; rfl
  | succ n ih =>
    show ExtendedMantissa.shiftRightOne
      ((⟨m * 2 ^ (n + 1), false, false⟩ : ExtendedMantissa) >>> n) = _
    rw [Nat.pow_succ, Nat.mul_comm (2 ^ n) 2, ← Nat.mul_assoc, ih]
    simp [ExtendedMantissa.shiftRightOne]

/-- A significand under zeros is rounded to itself. -/
theorem roundWithAccuracy_mul_two_pow {s : Sign} {m : Nat} {e : Int} (hm : 0 < m) (n : Nat)
    (h : Format.binary64.targetExponent (totalExponent m e) = e) :
    roundWithAccuracy Format.binary64 s (m * 2 ^ n) (e - n) .exact = .finite s m e hm := by
  have htotal : totalExponent (m * 2 ^ n) (e - n) = totalExponent m e := by
    rw [totalExponent, totalExponent, log2_mul_two_pow hm]
    omega
  have hfirst : shiftToTargetExponent Format.binary64 (m * 2 ^ n) (e - n) .exact =
      (⟨m, false, false⟩, e) := by
    rw [shiftToTargetExponent, shiftToExponent, htotal, h, show (e - (e - n)).toNat = n by omega,
      ExtendedMantissa.ofMantissaAndAccuracy, shiftRight_mul_two_pow, Int.sub_add_cancel]
  have hsecond : shiftToTargetExponent Format.binary64 m e .exact = (⟨m, false, false⟩, e) := by
    have hshift := shiftRight_mul_two_pow 0 m
    rw [Nat.pow_zero, Nat.mul_one] at hshift
    rw [shiftToTargetExponent, shiftToExponent, h, Int.sub_self, Int.toNat_zero,
      ExtendedMantissa.ofMantissaAndAccuracy, hshift, Int.natCast_zero, Int.add_zero]
  have hrounded : ExtendedMantissa.roundedMantissa ⟨m, false, false⟩ = m := rfl
  unfold roundWithAccuracy
  rw [hfirst]
  dsimp only
  rw [hrounded, hsecond, dif_neg (Nat.ne_of_gt hm)]

/-! ## 3. The product -/

theorem unpack_neg_one : (-1.0 : Float).toModel.unpack =
    .finite .negative (2 ^ 52) (-52) (Nat.two_pow_pos 52) := by
  rfl

/-- **A float times `-1` is its negative.** -/
theorem mul_neg_one (x : Float) : x * (-1.0) = -x := by
  have hmul : UnpackedFloat.mul Format.binary64 x.toModel.unpack (-1.0 : Float).toModel.unpack =
      x.toModel.unpack.neg := by
    rw [unpack_neg_one]
    cases hx : x.toModel.unpack with
    | notANumber => rfl
    | infinity s => cases s <;> rfl
    | zero s => cases s <;> rfl
    | finite s m e hm =>
      have hround := roundWithAccuracy_mul_two_pow (s := -s) hm 52 (targetExponent_of_unpack hx)
      cases s
      · exact hround
      · exact hround
  exact congrArg (fun u => Float.ofModel (Float.Model.pack u)) hmul

end BandMath
