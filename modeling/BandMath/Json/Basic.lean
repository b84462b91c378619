/-
# JSON values

The tree of a JSON text.  Two things are kept as they were written, because what they are worth is
decided only where they are used: the digits of a number, and the members of an object, in order and
with repetitions.

An escape may write half of a surrogate pair, which no text can hold.  Such a string is not a text,
and stands in the tree as `none`.  It is a fault where a text is asked for, and none where the
member that it belongs to is ignored (`BandMath.Catalogue.Decoding`).

The float that a number is read as is not always the nearest one to what is written.  It is found in
three steps, each in the arithmetic of floats:

1. The leading digits that fit into a word of 64 bits are read as one natural number; further digits
   only shift the exponent (`Numeral.leading`).
2. That number is rounded to a float.
3. The float is multiplied or divided by a power of ten, which is exact up to `10^22` only and, for
   very small numbers, is done in several factors (`Numeral.scale`).

A number beyond all floats has no value.  `Decimal.unsigned?`, which reads the numbers of formulas,
rounds once and knows infinity; the two readers must not be confused.
-/
import BandMath.Decimal.Numeral

namespace BandMath

/-! ## 1. Numbers -/

namespace Json

/-- The parts of a number as it is written. -/
structure Numeral where
  negative : Bool
  whole : List Char
  /-- Digits after the point, if there is one. -/
  fraction : Option (List Char)
  /-- Sign and digits of the exponent, if there is one. -/
  exponent : Option (Bool × List Char)

namespace Numeral

/-- The greatest number of a 64-bit word. -/
def wordMax : Nat := 18446744073709551615

/-- The greatest exponent of ten that a float can have. -/
def maxScale : Nat := 308

/-- The greatest number of a signed 32-bit word. -/
def maxExponent : Nat := 2147483647

/-- Appends digits to `m` as long as the result fits into a word; gives the digits left over too. -/
def absorb (m : Nat) : List Char → Nat × List Char
  | [] => (m, [])
  | c :: cs =>
    let next := Decimal.digitsValue [c] + 10 * m
    if next ≤ wordMax then absorb next cs else (m, c :: cs)

/-- The leading digits that fit into a word, and the power of ten that belongs to them. -/
def leading (n : Numeral) : Nat × Int :=
  let (m, rest) := absorb 0 n.whole
  let fraction := n.fraction.getD []
  let (m, unused) := absorb m fraction
  (m, (rest.length : Int) - (fraction.length - unused.length : Nat))

/-- `x · 10^e` in float arithmetic, one factor at a time; no value if it is beyond all floats. -/
def scale (x : Float) (e : Int) : Option Float :=
  if e.natAbs ≤ maxScale then
    let factor := Decimal.scaledFloat 1 e.natAbs
    if e < 0 then some (x / factor)
    else
      let y := x * factor
      if y.isInf then none else some y
  else if x == 0 then some x
  else if e < 0 then scale (x / Decimal.scaledFloat 1 maxScale) (e + maxScale)
  else none
termination_by e.natAbs
decreasing_by simp [maxScale] at *; omega

/-- The exponent of a number, kept within the range of a signed word. -/
def clamp (e : Int) : Int :=
  max (-(maxExponent : Int) - 1) (min e maxExponent)

/-- The value without its sign.  An exponent beyond a signed word leaves only zero, unless it is
positive and belongs to a number that is not zero. -/
def magnitude? (n : Numeral) : Option Float :=
  let (m, e) := n.leading
  match n.exponent with
  | none => scale (Float.ofNat m) e
  | some (negative, digits) =>
    let k := Decimal.digitsValue digits
    if k ≤ maxExponent then scale (Float.ofNat m) (clamp (if negative then e - k else e + k))
    else if negative || m = 0 then some 0
    else none

/-- The float that a number is read as; no value if it is beyond all floats. -/
def float? (n : Numeral) : Option Float :=
  n.magnitude?.map fun x => if n.negative then -x else x

end Numeral

end Json

/-! ## 2. Values -/

/-- The tree of a JSON text. -/
inductive Json where
  | null
  | bool (b : Bool)
  | number (n : Json.Numeral)
  | string (s : Option String)
  | array (items : List Json)
  | object (members : List (Option String × Json))

end BandMath
