/-
# Deferred columns and tables

A deferred series is a deferred array of one axis with row labels and perhaps a name; a deferred
frame puts deferred series side by side.  They are to `Series` and `Frame` what deferred arrays are
to given ones: labels and names are there from the beginning, and only values are put off.

Rows are not matched by their labels.  Two columns can be combined when their labels are the same in
the same order, which is asked first, and their values fit together, which is asked of the deferred
arrays inside.

What becomes of the names is not the same everywhere:

* Two deferred columns give a column with the name that both share, and without one otherwise, as
  two given columns do (`commonName`).
* A deferred column and a given one (`binarySeries`, `seriesBinary`, which are `op_series` and
  `rop_series`) give a column with the name of the deferred one, whatever the other is called.

`LazyFrame.concat` names a column that has no name by its place, while a given table is made with
all its names (`Frame.ofSeries`).  `compute` of a frame computes column by column, and the names of
the frame replace those that the columns have.
-/
import BandMath.Deferred.LazyArray
import BandMath.Labeled.Frame

namespace BandMath

/-! ## 1. Columns -/

/-- A column whose values are deferred; its labels are known. -/
structure LazySeries where
  name : Option String
  /-- The row labels. -/
  index : List String
  values : LazyArray

namespace LazySeries

instance : BEq LazySeries where
  beq s t := s.name == t.name && s.index == t.index && s.values == t.values

/-- Cuts a series into chunks of `size` rows. -/
def ofSeries (s : Series) (size : Nat) : Except Error LazySeries := do
  return { name := s.name, index := s.index, values := ← LazyArray.ofArray s.array size }

/-- Replaces the name. -/
def withName (s : LazySeries) (name : String) : LazySeries :=
  { s with name := some name }

/-- The number of rows. -/
def length (s : LazySeries) : Nat :=
  s.index.length

/-- `s op t`; the result has the name that both share. -/
def binary (op : BinaryOp) (s t : LazySeries) : Except Error LazySeries := do
  if s.index ≠ t.index then throw .indexMismatch
  return { s with name := commonName s.name t.name, values := ← s.values.binary op t.values }

/-- `s op v`. -/
def binaryNumber (op : BinaryOp) (s : LazySeries) (v : Float) : LazySeries :=
  { s with values := s.values.binaryNumber op v }

/-- `v op s`. -/
def numberBinary (op : BinaryOp) (v : Float) (s : LazySeries) : LazySeries :=
  { s with values := .numberBinary op v s.values }

/-- `s op t` for a given series `t`; the result has the name of `s`. -/
def binarySeries (op : BinaryOp) (s : LazySeries) (t : Series) : Except Error LazySeries := do
  if s.index ≠ t.index then throw .indexMismatch
  return { s with values := ← s.values.binaryArray op t.array }

/-- `t op s` for a given series `t`; the result has the name of `s`. -/
def seriesBinary (op : BinaryOp) (t : Series) (s : LazySeries) : Except Error LazySeries := do
  if s.index ≠ t.index then throw .indexMismatch
  return { s with values := ← LazyArray.arrayBinary op t.array s.values }

/-- The operation on every value of `s`. -/
def unary (op : UnaryOp) (s : LazySeries) : LazySeries :=
  { s with values := s.values.unary op }

/-- The series that a deferred series describes. -/
def compute (mode : Mode) (s : LazySeries) : Except Error Series := do
  let a ← s.values.compute mode
  if a.rank ≠ 1 then throw .incompatibleShapes
  let series ← (Series.ofList a.toList).withIndex s.index
  return { series with name := s.name }

end LazySeries

/-! ## 2. Tables -/

/-- Deferred columns and their names. -/
structure LazyFrame where
  columns : List String
  series : List LazySeries

namespace LazyFrame

instance : BEq LazyFrame where
  beq f g := f.columns == g.columns && f.series == g.series

/-- Puts columns with the same row labels side by side.  A column without a name is named by its
place. -/
def concat (series : List LazySeries) : Except Error LazyFrame :=
  let index := (series.head?.map (·.index)).getD []
  if series.all fun s => s.index = index then
    .ok { columns := series.mapIdx fun i s => s.name.getD i.repr, series }
  else .error .indexMismatch

/-- Replaces all column names. -/
def rename (f : LazyFrame) (names : List String) : Except Error LazyFrame :=
  if names.length = f.columns.length then .ok { f with columns := names }
  else .error (.labelCount f.columns.length names.length)

/-- The first column of a name. -/
def column? (f : LazyFrame) (name : String) : Option LazySeries :=
  (f.columns.idxOf? name).bind fun i => f.series[i]?

/-- The table that a deferred frame describes. -/
def compute (mode : Mode) (f : LazyFrame) : Except Error Frame := do
  Frame.ofSeries f.columns (← f.series.mapM (LazySeries.compute mode))

end LazyFrame

end BandMath
