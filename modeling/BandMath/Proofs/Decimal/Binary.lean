/-
# Floats and their values

A finite float is known from its sign, significand and exponent (`eq_of_ofFloat`), and these are
canonical: a significand has full length unless the exponent is the least.  What Lean calls a finite
float is one that denotes a number (`exists_ofFloat_of_isFinite`).

The bits of a float are three fields side by side, and a number below `2^64` is known from them
(`Binary.ofBits_eq_finite`, `eq_of_ofBits`).  The fields of a finite float are in turn known from
sign, significand and exponent, by two cases: a significand of full length gives away that the
leading bit is not stored, and a shorter one that the exponent is the least.

A float of Lean is known by its bits, and whether it is finite is read off the exponent that they
store (`biased_ne_of_isFinite`).  Floats that are not finite are left out: all NaN are one value of
`Binary`.
-/
import BandMath.Proofs.Decimal.Shortest

namespace BandMath.Decimal

open Float.Model Float.Model.UnpackedFloat

variable {bits bits' m : Nat} {q : Int} {negative : Bool} {x y : Float}

/-! ## 1. Bits -/

/-- The three fields of the bits of a finite float. -/
theorem Binary.ofBits_eq_finite (h : ofBits bits = .finite negative m q) :
    (negative = true ↔ bits / signBit % 2 = 1) ∧
      (bits / leadingBit % 2048 = 0 ∧ m = bits % leadingBit ∧ q = minExponent ∨
        0 < bits / leadingBit % 2048 ∧ m = leadingBit + bits % leadingBit ∧
          q = minExponent + (bits / leadingBit % 2048 - 1 : Nat)) := by
  unfold ofBits at h
  dsimp only at h
  split at h
  · split at h
    · exact nomatch h
    · exact nomatch h
  · split at h
    · rename_i hzero
      obtain ⟨rfl, rfl, rfl⟩ := Binary.finite.inj h
      exact ⟨decide_eq_true_iff, Or.inl ⟨hzero, rfl, rfl⟩⟩
    · rename_i hzero
      obtain ⟨rfl, rfl, rfl⟩ := Binary.finite.inj h
      exact ⟨decide_eq_true_iff, Or.inr ⟨Nat.pos_of_ne_zero hzero, rfl, rfl⟩⟩

theorem Binary.canonical (h : ofBits bits = .finite negative m q) : Canonical m q := by
  obtain ⟨-, ⟨-, rfl, rfl⟩ | ⟨-, rfl, rfl⟩⟩ := ofBits_eq_finite h
  · refine ⟨le_refl _, ?_, Or.inr rfl⟩
    unfold leadingBit
    omega
  · refine ⟨by omega, ?_, Or.inl ?_⟩
    · unfold leadingBit
      omega
    · unfold leadingBit
      omega

/-- The fields make up the bits. -/
theorem Binary.eq_of_ofBits (hlt : bits < 2 ^ 64) (hlt' : bits' < 2 ^ 64)
    (h : ofBits bits = .finite negative m q) (h' : ofBits bits' = .finite negative m q) :
    bits = bits' := by
  obtain ⟨hsign, hfields⟩ := ofBits_eq_finite h
  obtain ⟨hsign', hfields'⟩ := ofBits_eq_finite h'
  have hsigns : bits / signBit % 2 = 1 ↔ bits' / signBit % 2 = 1 := hsign.symm.trans hsign'
  unfold signBit at hsigns
  unfold leadingBit at hfields hfields'
  omega

/-! ## 2. Floats -/

theorem Binary.canonical_of_ofFloat (h : ofFloat x = .finite negative m q) : Canonical m q :=
  canonical h

/-- **A float that denotes a number is known from it and its sign.** -/
theorem Binary.eq_of_ofFloat (h : ofFloat x = .finite negative m q)
    (h' : ofFloat y = .finite negative m q) : x = y := by
  have hbits : x.toBits.toNat = y.toBits.toNat :=
    eq_of_ofBits (UInt64.toNat_lt _) (UInt64.toNat_lt _) h h'
  obtain ⟨⟨b, hb⟩⟩ := x
  obtain ⟨⟨c, hc⟩⟩ := y
  obtain rfl : b = c := UInt64.toNat_inj.mp hbits
  rfl

theorem biased_ne_of_isFinite (h : x.isFinite = true) :
    x.toBits.toNat / leadingBit % 2048 ≠ 2047 := by
  intro hbiased
  have hexponent : @unpackExponent Format.binary64 x.toModel.toBits.toBitVec = -1#_ := by
    refine BitVec.eq_of_toNat_eq ?_
    change (x.toBits.toNat >>> 52) % 2 ^ 11 = 2047
    rw [Nat.shiftRight_eq_div_pow]
    exact hbiased
  have hunpack : x.isFinite = x.toModel.unpack.isFinite := rfl
  rw [hunpack] at h
  unfold Float.Model.unpack UnpackedFloat.unpack at h
  dsimp only at h
  rw [if_pos hexponent] at h
  split at h
  · exact absurd h Bool.false_ne_true
  · exact absurd h Bool.false_ne_true

/-- **A finite float denotes a number.** -/
theorem Binary.exists_ofFloat_of_isFinite (h : x.isFinite = true) :
    ∃ negative m q, ofFloat x = .finite negative m q := by
  have hbiased := biased_ne_of_isFinite h
  unfold ofFloat ofBits
  dsimp only
  rw [if_neg hbiased]
  split
  · exact ⟨_, _, _, rfl⟩
  · exact ⟨_, _, _, rfl⟩

end BandMath.Decimal
