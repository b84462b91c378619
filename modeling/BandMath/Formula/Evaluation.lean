/-
# Evaluation

A formula has a value over any type of operands: one in which literals have a value and which says
what its operators do.  Only what a scope names can be used, the values of symbols and the functions
that were put into it; there are no functions otherwise.

* `Operand` is what a type of operands has to give.  Floats and the values of a batch are the two
  instances (`BandMath.Value.Arithmetic`).
* A `Scope` is a set of bindings and a list of functions.  A function is looked up among the
  functions and a symbol among the bindings, so a symbol and a function may have the same name and
  have nothing to do with each other.
* `Expr.eval` follows the tree.  A literal and a bound symbol are values; an operator is applied to
  the values of its operands.

Operands are evaluated from left to right, and a function is looked up before its argument is
evaluated.  So of several names that stand for nothing the first in the text is reported
(`BandMath.Proofs.Formula.References`), and an operator is asked, and can fail, only when both of
its operands have values.

`evaluateIn` (`evaluate_in`) evaluates a formula in a scope, `evaluate` without any function.
Indices are evaluated in the second way and kernels in the first (`Kernel.compute`).
-/
import BandMath.Bindings
import BandMath.Formula.Basic

namespace BandMath

/-! ## 1. Operands -/

/-- Types that formulas are evaluated over. -/
class Operand (α : Type) where
  /-- The value of a literal. -/
  constant : Float → α
  /-- The value of `x op y`. -/
  binary : BinaryOp → α → α → Except Error α
  unary : UnaryOp → α → Except Error α
  /-- For operands that take whole formulas in a language of their own: hands the text of a formula
  and the values of its symbols over to the operand.  Other operands have no such language. -/
  expression? : String → Bindings α → α → Option (Except Error α) := fun _ _ _ => none

instance : Operand Float where
  constant := id
  binary op x y := .ok (op.apply x y)
  unary op x := .ok (op.apply x)

namespace Formula

/-! ## 2. Scopes -/

/-- Functions that a scope may offer. -/
inductive Function where
  | exp
  deriving Repr, DecidableEq

/-- The name by which a formula calls the function. -/
def Function.name : Function → String
  | exp => "exp"

/-- What the function does to its argument. -/
def Function.op : Function → UnaryOp
  | exp => .exp

/-- The names that a formula may use. -/
structure Scope (α : Type) where
  bindings : Bindings α
  functions : List Function := []

variable {α : Type}

/-- The function of a name, if the scope offers it. -/
def Scope.function? (s : Scope α) (name : String) : Option Function :=
  s.functions.find? fun f => f.name = name

/-! ## 3. Values -/

/-- The value of an expression.  Operands are evaluated from left to right, and a function is looked
up before its argument is evaluated. -/
def Expr.eval [Operand α] (s : Scope α) : Expr → Except Error α
  | number v => .ok (Operand.constant v)
  | symbol name =>
    match s.bindings[name]? with
    | some v => .ok v
    | none => .error (.undefinedSymbol name)
  | binary op left right => do
    let l ← left.eval s
    let r ← right.eval s
    Operand.binary op l r
  | negate inner => do
    Operand.unary .negate (← inner.eval s)
  | call name argument =>
    match s.function? name with
    | none => .error (.undefinedSymbol name)
    | some f => do Operand.unary f.op (← argument.eval s)

/-- The value of a formula in a scope. -/
def evaluateIn [Operand α] (f : Formula) (s : Scope α) : Except Error α :=
  f.expr.eval s

/-- The value of a formula without any function in scope. -/
def evaluate [Operand α] (f : Formula) (b : Bindings α) : Except Error α :=
  f.evaluateIn ⟨b, []⟩

end Formula

end BandMath
