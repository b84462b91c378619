/-
# The value of a binary float

A finite float is `± m · 2^q` with natural `m` and integer `q`.  `Binary.ofFloat` reads sign, `m`
and `q` off the bits; everything that writes or rounds a float works on these three numbers, in
exact arithmetic.

The bits of a float are a sign, an exponent of eleven bits that is stored with an offset, and a
fraction of 52 bits:

* If the stored exponent is neither 0 nor 2047, a bit that is not stored stands before the fraction
  (`leadingBit`), so `m` lies between `2^52` and `2^53`.
* If it is 0, there is no such bit, and `q` is the least exponent (`minExponent`).  These are the
  subnormal floats, the two zeros among them.
* If it is 2047, the float is an infinity or NaN.  All NaN are one value here, as none of the texts
  tells them apart.

So every finite float has exactly one such `m` and `q`, and distinct finite floats differ in one of
the three numbers (`Binary.eq_of_ofFloat`).  The negative zero keeps its sign.

`ratio` gives `m · 2^q` as a quotient of two naturals, which is the form in which it is compared
with decimals.
-/

namespace BandMath.Decimal

/-- What the bits of a float denote. -/
inductive Binary where
  | nan
  | infinite (negative : Bool)
  /-- The value `± significand · 2^exponent`. -/
  | finite (negative : Bool) (significand : Nat) (exponent : Int)
  deriving Repr, DecidableEq

/-- The bit before the stored fraction, `2^52`. -/
def leadingBit : Nat := 0x10000000000000

/-- The bit that holds the sign, `2^63`. -/
def signBit : Nat := 0x8000000000000000

/-- The exponent of the smallest positive float, `2^(-1074)`. -/
def minExponent : Int := -1074

/-- Reads the sign, the biased exponent and the fraction off the bits.  The biased exponent 0 marks
subnormal values, which have no leading bit; 2047 marks infinities and NaN. -/
def Binary.ofBits (bits : Nat) : Binary :=
  let negative := bits / signBit % 2 = 1
  let biased := bits / leadingBit % 2048
  let fraction := bits % leadingBit
  if biased = 2047 then
    if fraction = 0 then .infinite negative else .nan
  else if biased = 0 then .finite negative fraction minExponent
  else .finite negative (leadingBit + fraction) (minExponent + (biased - 1 : Nat))

/-- The value of a float. -/
def Binary.ofFloat (x : Float) : Binary :=
  .ofBits x.toBits.toNat

/-- The binary rational `m · 2^q` as a quotient of naturals. -/
def ratio (m : Nat) (q : Int) : Nat × Nat :=
  (m * Nat.pow 2 q.toNat, Nat.pow 2 (-q).toNat)

end BandMath.Decimal
