/-
# Operators

The operations of a formula and what they do to two floats or to one.  Arithmetic is that of binary
floats: a division by zero gives an infinity or NaN, and so does a power without a real value.
There is nothing that an operator refuses; refusals come from the kinds and shapes of the values
around the floats (`BandMath.Value.Arithmetic`).

A binary operator has a sign, by which formulas and messages mention it (`BinaryOp.symbol`), and a
name among the functions of a remote executor (`BinaryOp.method`), which is not always that of the
constructor.  A unary operator has a name for messages (`UnaryOp.name`); what it becomes remotely is
said where handles are defined (`BandMath.Remote.Handle`).

`exp` is the only function.  It is a unary operator like negation for whatever evaluates formulas,
and it differs from it only in how a formula comes to mention it: by a name that has to be in scope
(`Formula.Scope`), and not by a sign.

An `Operation` is what a value may refuse: a unary operator, or being a variable of a formula that
is evaluated remotely.
-/

namespace BandMath

/-! ## 1. Binary operators -/

/-- Operators between two operands. -/
inductive BinaryOp where
  | add
  | subtract
  | multiply
  | divide
  | power
  deriving Repr, DecidableEq

namespace BinaryOp

/-- All operators, in the order in which they are listed. -/
def all : List BinaryOp := [add, subtract, multiply, divide, power]

/-- The value of `x op y`. -/
def apply : BinaryOp → Float → Float → Float
  | add, x, y => x + y
  | subtract, x, y => x - y
  | multiply, x, y => x * y
  | divide, x, y => x / y
  | power, x, y => Float.pow x y

/-- The sign that stands for the operator in a formula. -/
def symbol : BinaryOp → String
  | add => "+"
  | subtract => "-"
  | multiply => "*"
  | divide => "/"
  | power => "^"

/-- The name of the operator among the functions of a remote executor. -/
def method : BinaryOp → String
  | add => "add"
  | subtract => "subtract"
  | multiply => "multiply"
  | divide => "divide"
  | power => "pow"

end BinaryOp

/-! ## 2. Unary operators -/

/-- Operations on one operand. -/
inductive UnaryOp where
  | negate
  | exp
  deriving Repr, DecidableEq

namespace UnaryOp

/-- All operators, in the order in which they are listed. -/
def all : List UnaryOp := [negate, exp]

/-- The value of the operator at `x`. -/
def apply : UnaryOp → Float → Float
  | negate, x => -x
  | exp, x => Float.exp x

/-- The name by which messages mention the operation. -/
def name : UnaryOp → String
  | negate => "negate"
  | exp => "exp"

end UnaryOp

/-! ## 3. Operations a value may refuse -/

/-- An operation that not every kind of value supports. -/
inductive Operation where
  | unary (op : UnaryOp)
  /-- Being a variable of an expression that is evaluated remotely. -/
  | expression
  deriving Repr, DecidableEq

/-- The name by which messages mention what was asked for. -/
def Operation.name : Operation → String
  | unary op => op.name
  | expression => "expression"

end BandMath
