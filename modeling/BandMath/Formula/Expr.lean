/-
# Expressions

The tree of a formula.  `depth` counts a leaf as 1; `symbols` lists the names that need a value, in
the order in which the formula first mentions them.  The name of a function is not a symbol.

There is one constructor for each form that a value can depend on, and none for what only guides
the reader: parentheses and a plus sign before an operand leave no trace in the tree.  A negation is
a node of its own, which is why a sign before a literal is an operation on it and not a literal of
another value.  The caret and the double star are one operator.

`mentions` gives every symbol as often as it occurs, from left to right, and `symbols`
(`collect_symbols`) drops the repetitions.  The order is that of the text, since operands stand on
both sides of their operator and never change places (`BandMath.Proofs.Formula.Symbols`).

No expression that was read is deeper than `maxDepth` (`BandMath.Formula.Reading`).  Expressions are
free of that limit otherwise: it is a property of what is accepted, and not part of the type, so
that operations on trees need not carry it along.
-/
import BandMath.Operator

namespace BandMath.Formula

/-- The tree of a formula. -/
inductive Expr where
  | number (value : Float)
  | symbol (name : String)
  | binary (op : BinaryOp) (left right : Expr)
  | negate (inner : Expr)
  | call (function : String) (argument : Expr)
  deriving DecidableEq

namespace Expr

/-- Length of the longest path from the root to a leaf. -/
def depth : Expr → Nat
  | number _ => 1
  | symbol _ => 1
  | binary _ left right => max left.depth right.depth + 1
  | negate inner => inner.depth + 1
  | call _ argument => argument.depth + 1

/-- Every symbol, as often as it occurs, from left to right. -/
def mentions : Expr → List String
  | number _ => []
  | symbol name => [name]
  | binary _ left right => left.mentions ++ right.mentions
  | negate inner => inner.mentions
  | call _ argument => argument.mentions

/-- The symbols without repetition, in the order of their first mention. -/
def symbols (e : Expr) : List String :=
  e.mentions.eraseDups

theorem one_le_depth (e : Expr) : 1 ≤ e.depth := by
  cases e <;> simp [depth]

end Expr

end BandMath.Formula
