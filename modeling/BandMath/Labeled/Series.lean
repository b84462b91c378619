/-
# Labeled columns

A series has a label for every row, a value for every row and perhaps a name.  Rows are not matched
by their labels: two series can be combined when their labels are the same in the same order.  What
is built from series keeps the name that all of them share, and has none otherwise (`commonName`).

* `ofList` (`new`) numbers the rows from 0, and `withIndex` (`with_index`) gives them other labels,
  of which there must be one for each row.  Labels may repeat; `get?` finds the first.
* `zipWith` (`zip`) combines two series.  Only their labels are compared: as each series has as many
  values as labels, equal labels are enough for equal lengths.
* `zipArray` (`zip_array`) combines a series with an array that has no labels.  The array may be
  stretched to the series and not the other way round: a result that is longer than the series, or
  has more axes, could not be labeled and is refused.

That a series has one label for each value is not part of the type.  It holds of all series that can
be made and of all that come out of an operation, which is a theorem about these operations
(`Series.Fits`).
-/
import BandMath.NDArray.Broadcast

namespace BandMath

/-- Values with a label each. -/
structure Series where
  name : Option String
  /-- The row labels. -/
  index : List String
  values : Array Float

/-- The name that two named things share. -/
def commonName (left right : Option String) : Option String :=
  if left = right then left else none

namespace Series

/-! ## 1. Making a series -/

/-- The labels `0`, `1`, … of rows that are only numbered. -/
def numbered (n : Nat) : List String :=
  (List.range n).map Nat.repr

/-- An unnamed series with numbered rows. -/
def ofList (values : List Float) : Series where
  name := none
  index := numbered values.length
  values := values.toArray

/-- The number of rows. -/
def length (s : Series) : Nat :=
  s.values.size

/-- Replaces the row labels, of which there must be one per value. -/
def withIndex (s : Series) (index : List String) : Except Error Series :=
  if index.length = s.length then .ok { s with index }
  else .error (.labelCount s.length index.length)

/-- Replaces the name. -/
def withName (s : Series) (name : String) : Series :=
  { s with name := some name }

/-- The values as an array of one axis. -/
def array (s : Series) : NDArray where
  shape := [s.length]
  data := s.values
  size_data := by simp [length, Position.count]

instance : BEq Series where
  beq s t := s.name == t.name && s.index == t.index && s.values == t.values

/-! ## 2. Reading a series -/

/-- The value of the first row with a label. -/
def get? (s : Series) (label : String) : Option Float :=
  (s.index.idxOf? label).bind fun i => s.values[i]?

/-! ## 3. Arithmetic -/

/-- Applies a function to every value. -/
def map (f : Float → Float) (s : Series) : Series :=
  { s with values := s.values.map f }

/-- Combines two series with the same row labels. -/
def zipWith (f : Float → Float → Float) (s t : Series) : Except Error Series :=
  if s.index = t.index then
    .ok { s with name := commonName s.name t.name, values := Array.zipWith f s.values t.values }
  else .error .indexMismatch

/-- Combines a series with an array that stretches to its shape. -/
def zipArray (f : Float → Float → Float) (s : Series) (a : NDArray) : Except Error Series :=
  match NDArray.zipWith f s.array a with
  | .ok r =>
    if r.shape = [s.length] then .ok { s with values := r.data }
    else .error (.shapeMismatch [s.length] a.shape)
  | .error e => .error e

end Series

end BandMath
