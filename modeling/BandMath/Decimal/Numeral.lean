/-
# Numerals

A numeral is a run of digits with at most one point among them, followed by an optional exponent:
`12`, `.5`, `3.`, `1e-3`.  At least one digit comes before the exponent.  Its value is the float
nearest to the decimal number it writes, a tie going to the even neighbour.

Two readers are made from these parts.  They differ in what they read besides numerals:

* `unsigned?` reads a numeral as it stands in a formula.  A sign before it is an operator there and
  not part of it, and a point or a mark that is out of place makes the whole run senseless.
* `float?` reads a number that is given on a command line.  It may have a sign, and infinities and
  NaN may be written by name (`named?`), in any mixture of cases.

Digits are those of ASCII.  A numeral is taken apart into its digits as one natural number and the
power of ten that belongs to it (`mantissa?`, `exponent?`), and these two are rounded together, once
(`scaledFloat`).  So a value does not depend on how a number is spelled: `10`, `1e1` and `100e-1`
are the same float.  There is no numeral that is out of range; one that is too large is an infinity.
-/
import BandMath.Text.Blank

namespace BandMath.Decimal

/-! ## 1. Digit strings -/

/-- A decimal digit `0` to `9`. -/
def isDigit (c : Char) : Bool :=
  '0' ≤ c && c ≤ '9'

/-- The number that a string of digits writes. -/
def digitsValue (cs : List Char) : Nat :=
  cs.foldl (fun n c => 10 * n + (c.toNat - '0'.toNat)) 0

/-- The float nearest to `m · 10^e`. -/
def scaledFloat (m : Nat) (e : Int) : Float :=
  Float.ofScientific m (e < 0) e.natAbs

/-! ## 2. Unsigned numerals -/

/-- Marks of an exponent. -/
def isExponentMark (c : Char) : Bool :=
  c = 'e' || c = 'E'

/-- Splits a leading sign off a text. -/
def splitSign : List Char → Bool × List Char
  | '-' :: cs => (true, cs)
  | '+' :: cs => (false, cs)
  | cs => (false, cs)

/-- An integer with an optional sign and at least one digit. -/
def exponent? (cs : List Char) : Option Int :=
  let (negative, digits) := splitSign cs
  if digits.isEmpty || !digits.all isDigit then none
  else some (if negative then -(digitsValue digits : Int) else digitsValue digits)

/-- Digits, an optional point with digits after it; one digit at least. -/
def mantissa? (cs : List Char) : Option (Nat × Nat) :=
  let whole := cs.takeWhile isDigit
  match cs.dropWhile isDigit with
  | [] => if whole.isEmpty then none else some (digitsValue whole, 0)
  | '.' :: fraction =>
    if (whole.isEmpty && fraction.isEmpty) || !fraction.all isDigit then none
    else some (digitsValue (whole ++ fraction), fraction.length)
  | _ :: _ => none

/-- The value of an unsigned numeral. -/
def unsigned? (cs : List Char) : Option Float := do
  let body := cs.takeWhile fun c => !isExponentMark c
  let (m, places) ← mantissa? body
  let e ← match cs.drop body.length with
    | [] => some 0
    | _ :: rest => exponent? rest
  return scaledFloat m (e - places)

/-! ## 3. Signed numerals and names of floats -/

/-- The floats that have a name, in any mixture of cases. -/
def named? (cs : List Char) : Option Float :=
  let name := String.ofList (cs.map Char.toLower)
  if name = "inf" || name = "infinity" then some (1.0 / 0.0)
  else if name = "nan" then some (0.0 / 0.0)
  else none

/-- A numeral or a name, after an optional sign. -/
def float? (cs : List Char) : Option Float :=
  let (negative, rest) := splitSign cs
  ((named? rest).orElse fun _ => unsigned? rest).map fun x => if negative then -x else x

end BandMath.Decimal
