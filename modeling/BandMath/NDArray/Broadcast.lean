/-
# Combining arrays of different shapes

A shape stretches to another one if, aligned at the last axes, each of its axes has the same length
as its partner or length 1; axes that it lacks come first.  Two arrays can be combined element by
element when the shape of one stretches to that of the other.  The result has the greater shape, and
an element is found at `project`, where an axis of length 1 always gives its only element.

`NDArray.zipWith` is `zip_arrays`.  It stretches one operand at most: shapes `[3, 1]` and `[1, 2]`,
each of which would have to be stretched along one axis, do not go together, because neither
stretches to the other.  The left shape is tried first, which makes no difference to the result: if
each stretches to the other, they are the same (`Broadcasts.antisymm`).

An operator need not be commutative, so operands are never exchanged, and the shapes in an error are
in the order of the operands.
-/
import BandMath.Error
import BandMath.NDArray.Basic

namespace BandMath.NDArray

/-! ## 1. Stretching a shape -/

/-- Whether arrays of shape `source` can be read as arrays of shape `target`. -/
def stretches (source target : List Nat) : Bool :=
  source.length ≤ target.length &&
    (source.zip (target.drop (target.length - source.length))).all fun (n, m) => n = m || n = 1

/-- Where an array of shape `source` has the element for position `p` of a shape it stretches to. -/
def project (source p : List Nat) : List Nat :=
  List.zipWith (fun n i => if n = 1 then 0 else i) source (p.drop (p.length - source.length))

/-- The shape that two arrays are combined at; the left one is preferred. -/
def commonShape? (left right : List Nat) : Option (List Nat) :=
  if stretches right left then some left
  else if stretches left right then some right
  else none

/-! ## 2. Two arrays -/

/-- Combines two arrays element by element. -/
def zipWith (f : Float → Float → Float) (l r : NDArray) : Except Error NDArray :=
  match commonShape? l.shape r.shape with
  | some shape =>
    .ok (ofFn shape fun p => f (l.get (project l.shape p)) (r.get (project r.shape p)))
  | none => .error (.shapeMismatch l.shape r.shape)

end BandMath.NDArray
