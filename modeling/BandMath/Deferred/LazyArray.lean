/-
# Deferred arrays

An operation on a deferred array only records what is to be done; the elements are computed by
`compute`, chunk by chunk.  Two deferred arrays can be combined when they agree in shape and in
chunks, a deferred array and a given one when they agree in shape.

A deferred array is a layout, its shape and its chunks, and a task (`BandMath.Deferred.Task`).  The
layout is known at once, so whether two arrays fit together is found out when they are combined and
not when they are computed.  The rules are stricter than those of given arrays: nothing is stretched
to a larger shape here, as a stretched array would not be cut like the other one.

* `ofArray` (`from_array`) cuts an array along its leading axis.  All chunks have the requested
  length but the last, which may be shorter.
* `stack` puts arrays of one shape along a new leading axis, and makes each of them a chunk.  How
  the arrays were cut before does not matter.
* `binary`, `binaryNumber`, `numberBinary`, `binaryArray` and `arrayBinary` (`op`, `op_scalar`,
  `rop_scalar`, `op_array`, `rop_array`) keep the order of operands.  A given array is cut like the
  deferred one that it meets (`sourceLike`).

What `compute` gives on the result of an operation is what the operation gives on computed arrays
(`BandMath.Proofs.Deferred.LazyArray`), and on whatever is made in these ways it never fails
(`BandMath.Proofs.Deferred.Realization`).
-/
import BandMath.Deferred.Task

namespace BandMath

open Deferred

/-- A layout, and the task that computes an array of that layout. -/
structure LazyArray where
  layout : Layout
  task : Task

namespace LazyArray

instance : BEq LazyArray where
  beq a b := a.layout == b.layout && a.task == b.task

/-- The shape of the array that will be computed. -/
def shape (a : LazyArray) : List Nat :=
  a.layout.shape

/-- The lengths of the chunks along the leading axis. -/
def chunks (a : LazyArray) : List Nat :=
  a.layout.chunks

/-! ## 1. Making a deferred array -/

/-- Cuts an array into chunks of length `size`. -/
def ofArray (a : NDArray) (size : Nat) : Except Error LazyArray :=
  if a.rank = 0 then .error (.invalidChunks .noAxis)
  else if size = 0 then .error (.invalidChunks .zeroLength)
  else
    let chunks := chunkSizes (a.length 0) size
    .ok ⟨⟨a.shape, chunks⟩, .source a chunks⟩

/-- Arrays of one shape along a new leading axis. -/
def stack (arrays : List LazyArray) : Except Error LazyArray :=
  match arrays with
  | [] => .error (.notEnoughResults 1 0)
  | first :: others =>
    match others.find? fun a => a.shape ≠ first.shape with
    | some a => .error (.shapeMismatch first.shape a.shape)
    | none =>
      .ok ⟨⟨arrays.length :: first.shape, List.replicate arrays.length 1⟩,
        .stack (arrays.map fun a => (a.layout, a.task))⟩

/-! ## 2. Arithmetic -/

/-- The task of a given array under the chunks of `a`. -/
def sourceLike (a : LazyArray) (b : NDArray) : Except Error Task :=
  if b.shape = a.shape then .ok (.source b a.chunks)
  else .error (.shapeMismatch a.shape b.shape)

/-- `a op b`. -/
def binary (op : BinaryOp) (a b : LazyArray) : Except Error LazyArray :=
  if a.shape ≠ b.shape then .error (.shapeMismatch a.shape b.shape)
  else if a.chunks ≠ b.chunks then .error (.invalidChunks (.layoutsDiffer a.chunks b.chunks))
  else .ok { a with task := .binary op a.task b.task }

/-- `a op v`. -/
def binaryNumber (op : BinaryOp) (a : LazyArray) (v : Float) : LazyArray :=
  { a with task := .binary op a.task (.constant v) }

/-- `v op a`. -/
def numberBinary (op : BinaryOp) (v : Float) (a : LazyArray) : LazyArray :=
  { a with task := .binary op (.constant v) a.task }

/-- `a op b` for a given array `b`. -/
def binaryArray (op : BinaryOp) (a : LazyArray) (b : NDArray) : Except Error LazyArray := do
  let source ← a.sourceLike b
  return { a with task := .binary op a.task source }

/-- `b op a` for a given array `b`. -/
def arrayBinary (op : BinaryOp) (b : NDArray) (a : LazyArray) : Except Error LazyArray := do
  let source ← a.sourceLike b
  return { a with task := .binary op source a.task }

/-- The operation on every element of `a`. -/
def unary (op : UnaryOp) (a : LazyArray) : LazyArray :=
  { a with task := .unary op a.task }

/-! ## 3. Computing -/

/-- The array that a deferred array describes. -/
def compute (mode : Mode) (a : LazyArray) : Except Error NDArray :=
  realize mode a.layout a.task.block

end LazyArray

end BandMath
