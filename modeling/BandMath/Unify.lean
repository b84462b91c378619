/-
# Combining results

The results of a batch are combined into one value in which each can be found again, by its label or
by its place: arrays and deferred arrays are stacked, columns make a table, labeled arrays follow
each other along a dimension, images become the bands of one, and remote numbers a list.  All
results must be of one kind, and a single result is left as it is.

`unify` asks for the following, in this order, and reports the first that is not so:

1. There is one label for each result.
2. There is a result.
3. All results are of the kind of the first one; otherwise the first that is not is reported, with
   its place.
4. Results of that kind can be combined (`combine`).
5. They fit together, which is asked of them by the operation that combines them.

A single result passes after the third step, whatever its kind, and its label is not used.  Plain
numbers of several indices cannot be combined; a caller who wants them asks for a list instead.

The labels come out in different places: as names of columns, as the coordinate of the dimension
`axis`, or as names of bands.  Arrays, given or deferred, and lists of numbers have no place for
labels, and there the order of results is all that tells them apart.  Images and labeled arrays are
given their labels after they were put together; what has to be the number of labels is then the
number of bands or of positions in total.
-/
import BandMath.Value.Basic

namespace BandMath

/-- The first result that is not of a given kind, and its place. -/
def firstOtherKind? (kind : Kind) (results : List Value) : Option (Kind × Nat) :=
  (results.zipIdx.find? fun (v, _) => v.kind ≠ kind).map fun (v, i) => (v.kind, i)

/-- Combines results of one kind, two at least. -/
def combine (kind : Kind) (results : List Value) (labels : List String) (axis : String) :
    Except Error Value :=
  match kind with
  | .array =>
    match results.filterMap Value.array? with
    | [] => .error (.notEnoughResults 1 0)
    | first :: others => (NDArray.stack first others).map .array
  | .series => (Frame.ofSeries labels (results.filterMap Value.series?)).map .frame
  | .labeledArray => do
    let joined ← LabeledArray.concat (results.filterMap Value.labeledArray?) axis
    return .labeledArray (← joined.withCoord axis labels)
  | .remoteImage =>
    ((RemoteImage.cat (results.filterMap Value.remoteImage?)).rename labels).map .remoteImage
  | .remoteNumber => .ok (.remoteList (.ofNumbers (results.filterMap Value.remoteNumber?)))
  | .lazyArray => (LazyArray.stack (results.filterMap Value.lazyArray?)).map .lazyArray
  | .lazySeries => do
    let columns ← LazyFrame.concat (results.filterMap Value.lazySeries?)
    return .lazyFrame (← columns.rename labels)
  | other => .error (.unsupportedKind other)

/-- Combines results under one label each. -/
def unify (results : List Value) (labels : List String) (axis : String) : Except Error Value :=
  if results.length ≠ labels.length then
    .error (.labelCount results.length labels.length)
  else
    match results with
    | [] => .error (.notEnoughResults 1 0)
    | first :: others =>
      match firstOtherKind? first.kind results with
      | some (found, i) => .error (.mixedKinds first.kind found i)
      | none => if others.isEmpty then .ok first else combine first.kind results labels axis

end BandMath
