/-
# Labeled arrays

An array whose axes are named dimensions.  A dimension may carry a coordinate, one label for each of
its positions.  Two labeled arrays can be combined when they have the same dimensions in the same
order, the same shape, and no dimension with two different coordinates; the result has the
coordinates of both.  These things are asked in this order, and nothing is stretched.

A name of a dimension may occur twice; it then stands for the first axis of that name.

* `ofArray` (`new`) names the axes of an array, and `withCoord` (`with_coord`) labels one of them.
* `select` (`sel`) takes the part at one label; the dimension and its coordinate are gone.  Of two
  positions with the same label it is the first.
* `zipWith` (`zip`) and `zipArray` (`zip_array`) combine elements, the second with a plain array of
  the same shape, which has nothing to say about names or labels.
* `concat` puts arrays one after the other along a dimension that they have, or side by side along a
  new leading one.  All arrays must have the same dimensions.

What `concat` does to coordinates is not what `zipWith` does.  Along the dimension of the
concatenation the labels follow each other if all arrays have labels, and are dropped otherwise.  In
all other dimensions the coordinates of the first array are taken, whatever those of the others are;
contradictions are not looked for.
-/
import BandMath.Labeled.Series
import BandMath.NDArray.Join
import Std.Data.ExtTreeMap

namespace BandMath

/-- Labels by dimension, in the order of the names. -/
abbrev Coordinates := Std.ExtTreeMap String (List String)

/-- An array with names for its axes and labels along some of them. -/
structure LabeledArray where
  name : Option String
  /-- The names of the axes. -/
  dims : List String
  coords : Coordinates
  data : NDArray

namespace Coordinates

/-- The first dimension to which the two give different labels. -/
def conflict? (left right : Coordinates) : Option String :=
  (right.toList.find? fun (dim, labels) => left[dim]?.any fun mine => mine ≠ labels).map (·.1)

/-- The coordinates of both, unless they conflict. -/
def merge (left right : Coordinates) : Except Error Coordinates :=
  match conflict? left right with
  | some dim => .error (.coordinateMismatch dim)
  | none => .ok (left.insertMany right.toList)

end Coordinates

namespace LabeledArray

/-! ## 1. Making a labeled array -/

/-- Names the axes of an array. -/
def ofArray (data : NDArray) (dims : List String) : Except Error LabeledArray :=
  if dims.length = data.rank then .ok { name := none, dims, coords := ∅, data }
  else .error (.dimensionMismatch ((List.range data.rank).map fun i => s!"dim_{i}") dims)

/-- The axis that a dimension names. -/
def axis (a : LabeledArray) (dim : String) : Except Error Nat :=
  match a.dims.idxOf? dim with
  | some i => .ok i
  | none => .error (.unknownDimension dim)

/-- Gives a dimension a coordinate, in place of any it has. -/
def withCoord (a : LabeledArray) (dim : String) (labels : List String) :
    Except Error LabeledArray := do
  let i ← a.axis dim
  let expected := a.data.length i
  if labels.length = expected then return { a with coords := a.coords.insert dim labels }
  else throw (.labelCount expected labels.length)

/-- Replaces the name. -/
def withName (a : LabeledArray) (name : String) : LabeledArray :=
  { a with name := some name }

/-- The shape of the array inside. -/
def shape (a : LabeledArray) : List Nat :=
  a.data.shape

/-- The labels of a dimension, if it has any. -/
def coord? (a : LabeledArray) (dim : String) : Option (List String) :=
  a.coords[dim]?

instance : BEq LabeledArray where
  beq a b := a.name == b.name && a.dims == b.dims && a.coords.toList == b.coords.toList &&
    a.data == b.data

/-! ## 2. Selecting -/

/-- The part at one label of a dimension, without that dimension. -/
def select (a : LabeledArray) (dim label : String) : Except Error LabeledArray := do
  let i ← a.axis dim
  match (a.coord? dim).bind (·.idxOf? label) with
  | some k =>
    return { a with dims := a.dims.eraseIdx i, coords := a.coords.erase dim,
                    data := a.data.select i k }
  | none => throw (.unknownLabel dim label)

/-! ## 3. Arithmetic -/

/-- Applies a function to every element. -/
def map (f : Float → Float) (a : LabeledArray) : LabeledArray :=
  { a with data := a.data.map f }

/-- Combines two labeled arrays element by element. -/
def zipWith (f : Float → Float → Float) (a b : LabeledArray) : Except Error LabeledArray := do
  if a.dims ≠ b.dims then throw (.dimensionMismatch a.dims b.dims)
  if a.shape ≠ b.shape then throw (.shapeMismatch a.shape b.shape)
  let coords ← Coordinates.merge a.coords b.coords
  let data ← NDArray.zipWith f a.data b.data
  return { name := commonName a.name b.name, dims := a.dims, coords, data }

/-- Combines a labeled array with an array of the same shape. -/
def zipArray (f : Float → Float → Float) (a : LabeledArray) (b : NDArray) :
    Except Error LabeledArray := do
  if a.shape ≠ b.shape then throw (.shapeMismatch a.shape b.shape)
  return { a with data := ← NDArray.zipWith f a.data b }

/-! ## 4. Concatenation -/

/-- The coordinate of a dimension along which arrays follow each other: their labels in order, if
all of them have labels. -/
def joinedCoord? (dim : String) (arrays : List LabeledArray) : Option (List String) :=
  (arrays.mapM (coord? · dim)).map List.flatten

/-- Joins arrays along a dimension that they have, or stacks them along a new leading one.  The
coordinates of other dimensions are those of the first array. -/
def concat (arrays : List LabeledArray) (dim : String) : Except Error LabeledArray := do
  match arrays with
  | [] => throw (.notEnoughResults 1 0)
  | first :: others =>
    match others.find? fun b => b.dims ≠ first.dims with
    | some b => throw (.dimensionMismatch first.dims b.dims)
    | none =>
      let parts := others.map (·.data)
      match first.dims.idxOf? dim with
      | some i =>
        let data ← NDArray.join i first.data parts
        let coords := match joinedCoord? dim arrays with
          | some labels => first.coords.insert dim labels
          | none => first.coords.erase dim
        return { name := none, dims := first.dims, coords, data }
      | none =>
        let data ← NDArray.stack first.data parts
        return { name := none, dims := dim :: first.dims, coords := first.coords, data }

end LabeledArray

end BandMath
