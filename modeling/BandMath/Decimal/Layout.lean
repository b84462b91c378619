/-
# The text of a float

A layout fixes how the digits of a float are set: up to which exponent they are written in place,
whether a whole number keeps its `.0`, how an exponent is marked, and which of two equally short
decimals is taken.  `Layout.text` writes the shortest decimal that reads back in a given layout;
`fixedText` writes a fixed number of places instead.

Three layouts are in use:

* `Layout.message` is that of tokens inside messages about formulas.
* `Layout.document` is that of serialized graphs.  JSON has neither infinities nor NaN, and they are
  all written as null; `documentText` is the entry point.
* `Layout.report` is that of printed results, without exponents and without `.0`.

Which digits are written does not depend on the layout, save for ties: `Decimal.shortest` finds
them, and a layout only sets them.  A point or an exponent always says which power of ten they stand
for, so that no two finite floats have the same text in a document (`eq_of_documentText`).

A minus sign stands before every number whose sign bit is set, zero included, so the two zeros have
different texts in every layout.
-/
import BandMath.Decimal.Shortest

namespace BandMath.Decimal

/-! ## 1. Digits -/

/-- The decimal digits of a natural number. -/
def digitText (n : Nat) : List Char :=
  Nat.toDigits 10 n

/-- Digits with a point `places` before their end; there is at least one digit before the point. -/
def withPoint (digits : List Char) (places : Nat) : List Char :=
  let padded := List.replicate (places + 1 - digits.length) '0' ++ digits
  let whole := padded.take (padded.length - places)
  if places = 0 then whole else whole ++ '.' :: padded.drop (padded.length - places)

/-- The number `digits · 10^exponent`, written out in place. -/
def Scaled.positional (s : Scaled) : List Char :=
  if 0 ≤ s.exponent then digitText s.digits ++ List.replicate s.exponent.toNat '0'
  else withPoint (digitText s.digits) (-s.exponent).toNat

/-- The exponent of the first digit. -/
def Scaled.leading (s : Scaled) : Int :=
  s.exponent + (digitText s.digits).length - 1

/-! ## 2. Layouts -/

/-- The decisions of one way of writing floats. -/
structure Layout where
  /-- Least and greatest exponent of the first digit that are written in place; `none` for all. -/
  inPlace : Option (Int × Int)
  /-- Whether a whole number written in place ends in `.0`. -/
  keepsPoint : Bool
  /-- Whether a positive exponent carries its sign. -/
  signedExponent : Bool
  tie : Tie
  nan : String
  infinity : String

/-- Whether a number is written in place. -/
def Layout.writesInPlace (l : Layout) (s : Scaled) : Bool :=
  match l.inPlace with
  | none => true
  | some (least, greatest) => s.digits = 0 || (least ≤ s.leading && s.leading ≤ greatest)

/-- One digit, a point and the other digits if there are any, and the exponent. -/
def Layout.scientific (l : Layout) (s : Scaled) : List Char :=
  let digits := digitText s.digits
  let fraction := digits.drop 1
  let mantissa := digits.take 1 ++ if fraction.isEmpty then [] else '.' :: fraction
  let sign := if s.leading < 0 then ['-'] else if l.signedExponent then ['+'] else []
  mantissa ++ 'e' :: sign ++ digitText s.leading.natAbs

/-- The text of a number that is not negative. -/
def Layout.magnitude (l : Layout) (s : Scaled) : List Char :=
  if l.writesInPlace s then
    if l.keepsPoint && 0 ≤ s.exponent then s.positional ++ ['.', '0'] else s.positional
  else l.scientific s

/-- A minus sign before the text of a negative number, negative zero included. -/
def signed (negative : Bool) (magnitude : List Char) : String :=
  String.ofList (if negative then '-' :: magnitude else magnitude)

/-- The text of a float in a layout. -/
def Layout.text (l : Layout) (x : Float) : String :=
  match Binary.ofFloat x with
  | .nan => l.nan
  | .infinite negative => signed negative l.infinity.toList
  | .finite negative m q => signed negative (l.magnitude (shortest l.tie m q))

/-! ## 3. The layouts in use -/

/-- Numbers inside messages: in place from `0.0001` up to below `10^16`. -/
def Layout.message : Layout where
  inPlace := some (-4, 15)
  keepsPoint := true
  signedExponent := false
  tie := .up
  nan := "NaN"
  infinity := "inf"

/-- Numbers of serialized graphs: in place from `0.00001` up to below `10^16`.  What is not a finite
number has no such text and is written as null. -/
def Layout.document : Layout where
  inPlace := some (-5, 15)
  keepsPoint := true
  signedExponent := true
  tie := .even
  nan := "null"
  infinity := "null"

/-- Numbers of reports: always in place, and whole numbers without a point. -/
def Layout.report : Layout where
  inPlace := none
  keepsPoint := false
  signedExponent := false
  tie := .up
  nan := "NaN"
  infinity := "inf"

/-- The text of a number in a serialized graph. -/
def documentText (x : Float) : String :=
  if x.isFinite then Layout.document.text x else Layout.document.nan

/-! ## 4. Fixed places -/

/-- A float with exactly `places` digits after the point; a half goes to the even neighbour. -/
def fixedText (places : Nat) (x : Float) : String :=
  match Binary.ofFloat x with
  | .nan => Layout.report.nan
  | .infinite negative => signed negative Layout.report.infinity.toList
  | .finite negative m q =>
    let (num, den) := ratio m q
    signed negative (withPoint (digitText (roundDiv .even (num * Nat.pow 10 places) den)) places)

end BandMath.Decimal
