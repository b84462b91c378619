/-
# Tables

A frame is a table of columns under common row labels; every column has a name.  It is what becomes
of a batch of series when its results are combined (`combine`): one column for each index, in the
order of the request and under the name that was requested.

`Frame.ofSeries` (`from_series`) makes a frame of series and names:

* There has to be one name for each series, and this is asked first.
* All series must have the same row labels, in the same order.  Labels are compared and never
  matched: two series whose rows are the same in another order do not make a table.
* The names of the series themselves are not kept.  Names may repeat; nothing is asked of them.

`Frame.column?` (`column`) gives back a column as a series, under the name that it has in the table.
Of several columns with one name it is the first.  A frame without columns has no rows either, as
there is no series to take the labels from.

No operator is defined on frames (`Value.binary`), and none is among the operands of a formula that
has a value, except as its only one.
-/
import BandMath.Labeled.Series

namespace BandMath

/-- Columns and their names, under common row labels. -/
structure Frame where
  /-- The row labels. -/
  index : List String
  /-- The column names. -/
  columns : List String
  data : List (Array Float)

namespace Frame

/-- The table whose columns are the given series, under the given names. -/
def ofSeries (names : List String) (series : List Series) : Except Error Frame :=
  if names.length ≠ series.length then .error (.labelCount series.length names.length)
  else
    let index := (series.head?.map (·.index)).getD []
    if series.all fun s => s.index = index then
      .ok { index, columns := names, data := series.map (·.values) }
    else .error .indexMismatch

/-- Numbers of rows and of columns. -/
def shape (f : Frame) : Nat × Nat :=
  (f.index.length, f.columns.length)

/-- The first column of a name, as a series of that name. -/
def column? (f : Frame) (name : String) : Option Series :=
  (f.columns.idxOf? name).bind fun i =>
    f.data[i]?.map fun values => { name := some name, index := f.index, values }

instance : BEq Frame where
  beq f g := f.index == g.index && f.columns == g.columns && f.data == g.data

end Frame

end BandMath
