/-
# The shortest decimal that reads back

A decimal reads back as the float `m · 2^q` when it lies in the interval of numbers that round to
it; the two ends belong to the interval exactly when `m` is even, because a tie goes to the even
neighbour.  Of the powers of ten, `shortest` takes the greatest that has a multiple in the interval,
which makes the digits fewest, and of its multiples the one nearest to the value.

If a multiple of a power lies in the interval, so does one of the two multiples next to the value,
since the interval is convex and holds the value; hence testing those two is enough.

Everything is counted in quarters of the last binary place, which makes the ends of the interval
whole numbers (`Interval.around`), and everything is compared as a quotient of naturals, so that no
step is rounded.  The interval is not symmetric at a power of two, below which floats lie closer.

Both neighbours may lie in the interval, and then the nearer one is taken.  If they are equally
near, a `Tie` decides.  Two rules are in use: the greater one, and the one with an even last digit.

The search goes down from the first power above the value and tries `gridCount` powers.  That this
is enough, that the digits read back as the float they were made from, and that different floats
have different digits, is shown in `BandMath.Proofs.Decimal.Shortest`.
-/
import BandMath.Decimal.Binary

namespace BandMath.Decimal

/-! ## 1. Decimals and grids -/

/-- The number `digits · 10^exponent`. -/
structure Scaled where
  digits : Nat
  exponent : Int
  deriving Repr, DecidableEq

/-- Which of two equally near neighbours is taken. -/
inductive Tie where
  | up
  | even
  deriving Repr, DecidableEq

/-- Settles a tie between `d` and `d + 1`. -/
def Tie.pick : Tie → Nat → Nat
  | .up, d => d + 1
  | .even, d => if d % 2 = 0 then d else d + 1

/-- `num / den`, rounded to the nearest natural number. -/
def roundDiv (tie : Tie) (num den : Nat) : Nat :=
  let d := num / den
  let twice := 2 * (num % den)
  if twice < den then d else if den < twice then d + 1 else tie.pick d

/-- A quotient counted in units of `10^k`. -/
def inUnits (num den : Nat) (k : Int) : Nat × Nat :=
  (num * Nat.pow 10 (-k).toNat, den * Nat.pow 10 k.toNat)

/-! ## 2. The interval that rounds to a float -/

/-- The value and the two ends of its interval, in quarters of the last binary place.  The place
below a power of two is half as wide, except at the smallest exponent. -/
structure Interval where
  low : Nat
  value : Nat
  high : Nat
  closed : Bool
  deriving Repr

/-- The interval of `m · 2^q`, in units of `2^(q - 2)`. -/
def Interval.around (m : Nat) (q : Int) : Interval where
  low := if m = leadingBit ∧ q ≠ minExponent then 4 * m - 1 else 4 * m - 2
  value := 4 * m
  high := 4 * m + 2
  closed := m % 2 = 0

/-- Whether the quotient `num / den` lies in the interval. -/
def Interval.holds (i : Interval) (num den : Nat) : Bool :=
  if i.closed then i.low * den ≤ num && num ≤ i.high * den
  else i.low * den < num && num < i.high * den

/-! ## 3. The search -/

/-- The multiple of `10^k` nearest to the value among those in the interval, counted in units of
`10^k`. -/
def multiple? (tie : Tie) (m : Nat) (q : Int) (k : Int) : Option Nat :=
  let i := Interval.around m q
  -- one quarter of the last place is `place.1 / place.2` units of `10^k`
  let unit := ratio 1 (q - 2)
  let place := inUnits unit.1 unit.2 k
  let d := i.value * place.1 / place.2
  let fits (n : Nat) : Bool := 0 < n && i.holds (n * place.2) place.1
  match fits d, fits (d + 1) with
  | true, true => some (roundDiv tie (i.value * place.1) place.2)
  | true, false => some d
  | false, true => some (d + 1)
  | false, false => none

/-- Number of decimal digits; 0 for 0. -/
def digitCount (n : Nat) : Nat :=
  if n = 0 then 0 else (Nat.toDigits 10 n).length

/-- A power of ten above the value `num / den`. -/
def powerAbove (num den : Nat) : Int :=
  if den ≤ num then digitCount (num / den) else 1 - (digitCount (den / num) : Int)

/-- Seventeen digits tell any two floats apart, so eighteen grids from `powerAbove` on suffice. -/
def gridCount : Nat := 19

/-- The shortest decimal that reads back as `m · 2^q`; zero is `0 · 10^0`. -/
def shortest (tie : Tie) (m : Nat) (q : Int) : Scaled :=
  let (num, den) := ratio m q
  let top := powerAbove num den
  let hits := (List.range gridCount).filterMap fun (j : Nat) =>
    (multiple? tie m q (top - j)).map fun digits => Scaled.mk digits (top - j)
  hits.headD ⟨0, 0⟩

end BandMath.Decimal
