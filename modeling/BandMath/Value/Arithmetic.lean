/-
# Arithmetic of values

Which kinds can be combined, and what comes of it.  A plain number goes with every kind but tables
and lists; otherwise labeled things take arrays, deferred ones take their computed counterparts, and
images take numbers.  The order of operands is kept throughout, so `binary op x y` is `x op y` also
where the richer operand is on the right.

`binary` has one line for each pair of kinds that can be combined, and all other pairs are refused
in the last line, with the two kinds in the order of the operands.  Each line leaves the work to an
operation of the richer kind, which may refuse for its own reasons (`NDArray.zipWith`,
`Series.zipWith`, `LabeledArray.zipWith`, `LazyArray.binary` and their variants).  A plain number is
never made into an array for this: it is put in at every element.

Floats and values are the two types that formulas are evaluated over, and a formula over plain
numbers has the same value over both (`BandMath.Proofs.Value.Elements`).

Of all values only the handles of remote images and numbers take whole formulas (`expression?`).
They need a graph for every binding there is, whether the formula mentions it or not, so a binding
to a value without a graph is refused here.  Whether an image or a number comes out depends on the
bindings and not on the handle that is asked: a number that is asked where an image is bound gives
an image.
-/
import BandMath.Formula.Evaluation
import BandMath.Value.Basic

namespace BandMath.Value

/-! ## 1. Operators -/

/-- The value of `x op y`. -/
def binary (op : BinaryOp) : Value → Value → Except Error Value
  | scalar x, scalar y => .ok (scalar (op.apply x y))
  -- arrays
  | array a, array b => (NDArray.zipWith op.apply a b).map array
  | array a, scalar y => .ok (array (a.map fun x => op.apply x y))
  | scalar x, array b => .ok (array (b.map fun y => op.apply x y))
  -- labeled columns
  | series s, series t => (s.zipWith op.apply t).map series
  | series s, scalar y => .ok (series (s.map fun x => op.apply x y))
  | scalar x, series t => .ok (series (t.map fun y => op.apply x y))
  | series s, array b => (s.zipArray op.apply b).map series
  | array a, series t => (t.zipArray (fun y x => op.apply x y) a).map series
  -- labeled arrays
  | labeledArray a, labeledArray b => (a.zipWith op.apply b).map labeledArray
  | labeledArray a, scalar y => .ok (labeledArray (a.map fun x => op.apply x y))
  | scalar x, labeledArray b => .ok (labeledArray (b.map fun y => op.apply x y))
  | labeledArray a, array b => (a.zipArray op.apply b).map labeledArray
  | array a, labeledArray b => (b.zipArray (fun y x => op.apply x y) a).map labeledArray
  -- remote handles
  | remoteImage i, remoteImage j => .ok (remoteImage (i.binary op j.graph))
  | remoteImage i, remoteNumber n => .ok (remoteImage (i.binary op n.graph))
  | remoteNumber m, remoteImage j => .ok (remoteImage (.reverseBinary op m.graph j))
  | remoteImage i, scalar y => .ok (remoteImage (i.binary op (.constant y)))
  | scalar x, remoteImage j => .ok (remoteImage (.reverseBinary op (.constant x) j))
  | remoteNumber m, remoteNumber n => .ok (remoteNumber (m.binary op n.graph))
  | remoteNumber m, scalar y => .ok (remoteNumber (m.binary op (.constant y)))
  | scalar x, remoteNumber n => .ok (remoteNumber (.reverseBinary op (.constant x) n))
  -- deferred arrays
  | lazyArray a, lazyArray b => (a.binary op b).map lazyArray
  | lazyArray a, scalar y => .ok (lazyArray (a.binaryNumber op y))
  | scalar x, lazyArray b => .ok (lazyArray (.numberBinary op x b))
  | lazyArray a, array b => (a.binaryArray op b).map lazyArray
  | array a, lazyArray b => (LazyArray.arrayBinary op a b).map lazyArray
  -- deferred columns
  | lazySeries s, lazySeries t => (s.binary op t).map lazySeries
  | lazySeries s, scalar y => .ok (lazySeries (s.binaryNumber op y))
  | scalar x, lazySeries t => .ok (lazySeries (.numberBinary op x t))
  | lazySeries s, series t => (s.binarySeries op t).map lazySeries
  | series s, lazySeries t => (LazySeries.seriesBinary op s t).map lazySeries
  | x, y => .error (.incompatibleOperands op x.kind y.kind)

/-- The value of a unary operator. -/
def unary (op : UnaryOp) : Value → Except Error Value
  | scalar x => .ok (scalar (op.apply x))
  | array a => .ok (array (a.map op.apply))
  | series s => .ok (series (s.map op.apply))
  | labeledArray a => .ok (labeledArray (a.map op.apply))
  | remoteImage i => .ok (remoteImage (i.unary op))
  | remoteNumber n => .ok (remoteNumber (n.unary op))
  | lazyArray a => .ok (lazyArray (a.unary op))
  | lazySeries s => .ok (lazySeries (s.unary op))
  | v => .error (.unsupportedOperation (.unary op) v.kind)

/-! ## 2. Remote formulas -/

/-- The graph of a value that a remote formula can mention. -/
def graph : Value → Except Error Graph
  | scalar x => .ok (.constant x)
  | remoteImage i => .ok i.graph
  | remoteNumber n => .ok n.graph
  | v => .error (.unsupportedOperation .expression v.kind)

/-- The graphs of all bound values, by symbol. -/
def boundGraphs (b : Bindings Value) : Except Error (List (String × Graph)) :=
  b.toList.mapM fun (symbol, v) => v.graph.map fun g => (symbol, g)

/-- Whether some symbol is bound to a remote image. -/
def bindsImage (b : Bindings Value) : Bool :=
  b.values.any fun v => v.remoteImage?.isSome

/-- A remote handle hands a formula over to its executor.  The result is an image if the handle is
one or some symbol is bound to one, and a number otherwise. -/
def expression? (formula : String) (b : Bindings Value) : Value → Option (Except Error Value)
  | remoteImage _ => some ((boundGraphs b).map fun vars => remoteImage (.expression formula vars))
  | remoteNumber _ =>
    some ((boundGraphs b).map fun vars =>
      if bindsImage b then remoteImage (.expression formula vars)
      else remoteNumber (.expression formula vars))
  | _ => none

instance : Operand Value where
  constant := scalar
  binary := binary
  unary := unary
  expression? := expression?

end BandMath.Value
