/-
# Parts of arrays and arrays of parts

`slice` and `select` take a part along one axis; `stack` and `join` put arrays together, along a new
leading axis and along an axis they have.

* `slice` takes neighbouring positions along the leading axis and keeps that axis.  This is how an
  array is cut into chunks (`Deferred.chunkOf`).
* `select` takes one position along any axis, and the axis is gone.
* `stack` asks for arrays of one shape, `join` for arrays that differ in the length of the joined
  axis at most.  Otherwise the shapes are incompatible, which is all that the error says.

Each is given by the shape of its result and the element at a position (`ofFn`), so what it holds is
read off its definition.  For `join` the element is found by walking along the arrays until the
index falls into one of them (`getJoined`).

The two pairs undo each other: slices that cover an array join to that array (`join_slices`), and a
position along the axis of a stack selects the array that went in there (`select_stack`).
-/
import BandMath.Error
import BandMath.NDArray.Basic

namespace BandMath.NDArray

/-! ## 1. Parts -/

/-- The `count` positions from `start` on along the leading axis. -/
def slice (a : NDArray) (start count : Nat) : NDArray :=
  ofFn (count :: a.shape.tail) fun
    | i :: p => a.get ((start + i) :: p)
    | [] => 0

/-- One position along an axis; the axis is dropped. -/
def select (a : NDArray) (axis i : Nat) : NDArray :=
  ofFn (a.shape.eraseIdx axis) fun p => a.get (p.insertIdx axis i)

/-! ## 2. A new leading axis -/

/-- The same elements under a leading axis of length 1. -/
def lift (a : NDArray) : NDArray where
  shape := 1 :: a.shape
  data := a.data
  size_data := by simp [a.size_data, Position.count]

/-- Arrays of one shape along a new leading axis, in order. -/
def stack (first : NDArray) (others : List NDArray) : Except Error NDArray :=
  let arrays := first :: others
  if others.all fun a => a.shape = first.shape then
    .ok (ofFn (arrays.length :: first.shape) fun
      | i :: p => (arrays.getD i first).get p
      | [] => 0)
  else .error .incompatibleShapes

/-! ## 3. An axis they have -/

/-- The sum of some lengths. -/
def total : List Nat → Nat
  | [] => 0
  | n :: ns => n + total ns

/-- The element at `p` of arrays that follow each other along an axis. -/
def getJoined (axis : Nat) : List NDArray → List Nat → Float
  | [], _ => 0
  | a :: rest, p =>
    let i := p.getD axis 0
    if i < a.length axis then a.get p
    else getJoined axis rest (p.set axis (i - a.length axis))

/-- Arrays that differ at most in the length of one axis, one after the other along it. -/
def join (axis : Nat) (first : NDArray) (others : List NDArray) : Except Error NDArray :=
  let arrays := first :: others
  let rest := first.shape.eraseIdx axis
  if others.all fun a => a.rank = first.rank ∧ a.shape.eraseIdx axis = rest then
    .ok (ofFn (first.shape.set axis (total (arrays.map (·.length axis)))) (getJoined axis arrays))
  else .error .incompatibleShapes

end BandMath.NDArray
