/-
# Tasks

A task describes the computation of an array that is cut into chunks along its leading axis.  It is
evaluated one chunk at a time: `Task.block t i` (`eval_block`) is what `t` gives for chunk `i`,
either a block of elements or one number for all of them.  `realize` evaluates every chunk and joins
the blocks.

A task does not know its own shape.  The shape and the chunks are a `Layout`, which stands beside
the task in a `LazyArray` and says how many chunks there are and how long each of them is.  A task
of numbers only gives a number for every chunk, and it is the layout that makes it an array
(`Block.fill`).

Chunks are independent of each other, so they may be evaluated at the same time.  Inside a chunk
work is done in sequence; this matters for stacks, since a stack has one chunk for each of its
inputs, and that chunk is the whole of the input under a new leading axis.

Evaluation can fail on its own account: nothing keeps a task from combining blocks that do not fit
together, or from being asked for a chunk that it does not have.  Deferred arrays are made in such a
way that this does not happen (`BandMath.Proofs.Deferred.Realization`).
-/
import BandMath.Mode
import BandMath.NDArray.Broadcast
import BandMath.NDArray.Join

namespace BandMath.Deferred

/-! ## 1. Chunks -/

/-- The shape of an array and the lengths of its chunks along the leading axis. -/
structure Layout where
  shape : List Nat
  chunks : List Nat
  deriving DecidableEq

/-- Chunks of length `size` that cover `n` positions; the last may be shorter, and an empty axis has
one empty chunk. -/
def chunkSizes (n size : Nat) : List Nat :=
  if n = 0 then [0]
  else List.replicate (n / size) size ++ if n % size = 0 then [] else [n % size]

/-- The number of positions before chunk `i`. -/
def chunkStart (chunks : List Nat) (i : Nat) : Nat :=
  NDArray.total (chunks.take i)

/-- Chunk `i` of an array that is cut into the given chunks. -/
def chunkOf (a : NDArray) (chunks : List Nat) (i : Nat) : NDArray :=
  a.slice (chunkStart chunks i) (chunks.getD i 0)

/-! ## 2. Tasks -/

/-- What is to be done to get an array. -/
inductive Task where
  /-- A given array, cut into chunks. -/
  | source (array : NDArray) (chunks : List Nat)
  | constant (value : Float)
  | binary (op : BinaryOp) (left right : Task)
  | unary (op : UnaryOp) (input : Task)
  /-- Arrays along a new leading axis, each a chunk of its own. -/
  | stack (inputs : List (Layout × Task))

/-- What a task gives for one chunk. -/
inductive Block where
  | number (value : Float)
  | array (a : NDArray)

namespace Block

/-- Combines two blocks; a number stands for a block full of it. -/
def binary (op : BinaryOp) : Block → Block → Except Error Block
  | number x, number y => .ok (number (op.apply x y))
  | array a, number y => .ok (array (a.map fun x => op.apply x y))
  | number x, array b => .ok (array (b.map fun y => op.apply x y))
  | array a, array b => (NDArray.zipWith op.apply a b).map array

/-- The operation on every element of a block. -/
def unary (op : UnaryOp) : Block → Block
  | number x => number (op.apply x)
  | array a => array (a.map op.apply)

/-- The elements of a block that is chunk `i` of a layout. -/
def fill (layout : Layout) (i : Nat) : Block → NDArray
  | number x => NDArray.fill (layout.shape.set 0 (layout.chunks.getD i 0)) x
  | array a => a

end Block

/-! ## 3. Evaluation -/

/-- Joins the blocks of a layout, each given by its number. -/
def realize (mode : Mode) (layout : Layout) (block : Nat → Except Error Block) :
    Except Error NDArray := do
  let part (i : Nat) := (block i).map (Block.fill layout i)
  match ← (mode.map part (List.range layout.chunks.length)).mapM id with
  | [] => throw .incompatibleShapes
  | first :: others => NDArray.join 0 first others

mutual

/-- What a task gives for chunk `i`. -/
def Task.block : Task → Nat → Except Error Block
  | .source a chunks, i => .ok (.array (chunkOf a chunks i))
  | .constant v, _ => .ok (.number v)
  | .binary op left right, i => do
    let l ← left.block i
    let r ← right.block i
    Block.binary op l r
  | .unary op input, i => (input.block i).map (Block.unary op)
  | .stack inputs, i => (inputArray inputs i).map fun a => .array a.lift

/-- The array that input `i` of a stack describes; inside a chunk, work is done in sequence. -/
def inputArray : List (Layout × Task) → Nat → Except Error NDArray
  | [], i => .error (.notEnoughResults (i + 1) 0)
  | (layout, t) :: _, 0 => realize .sequential layout t.block
  | _ :: rest, i + 1 => inputArray rest i

end

/-! ## 4. Equality -/

mutual

/-- Whether two tasks are built alike from equal parts. -/
def Task.same : Task → Task → Bool
  | .source a c, .source b d => a == b && c == d
  | .constant v, .constant w => v == w
  | .binary op l r, .binary op' l' r' => op == op' && l.same l' && r.same r'
  | .unary op t, .unary op' t' => op == op' && t.same t'
  | .stack ts, .stack us => sameInputs ts us
  | _, _ => false

/-- Whether two stacks have the same inputs, one by one. -/
def sameInputs : List (Layout × Task) → List (Layout × Task) → Bool
  | [], [] => true
  | (l, t) :: ts, (m, u) :: us => l == m && t.same u && sameInputs ts us
  | _, _ => false

end

instance : BEq Task := ⟨Task.same⟩

end BandMath.Deferred
