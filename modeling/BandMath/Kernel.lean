/-
# Kernels

A kernel is one of three functions of two bands `a` and `b` that kernel indices are made of.  Each
has two texts, which denote the same expression (`ofText_sources`):

* `source` (`formula`) is in the language of formulas.  It is read once, when a registry is loaded
  (`readAll`), and the registry keeps what was read at the `position` of its kernel.
* `remoteSource` (`expression_text`) is in the language of remote executors, which write a power
  with two stars.  It is handed over as it stands and never read here.

A kernel is asked for by its name, and one name is accepted in two spellings (`ofName`).  The
symbols that it requires are listed with it (`required`), in the order in which a missing one is
reported.  How a value is computed is the subject of `BandMath.Kernel.Evaluation`.
-/
import BandMath.Formula.Evaluation

namespace BandMath

/-- The kernels, in the order in which they are listed. -/
inductive Kernel where
  /-- `a * b` -/
  | linear
  /-- `(a * b + c) ^ p` -/
  | poly
  /-- `exp (-(a - b)^2 / (2 * sigma^2))` -/
  | rbf
  deriving Repr, DecidableEq

namespace Kernel

open Formula (Expr)

/-! ## 1. Names -/

/-- All kernels, in the order in which they are listed. -/
def all : Vector Kernel 3 := #v[linear, poly, rbf]

/-- The place of a kernel among all of them. -/
def position : Kernel → Fin 3
  | linear => 0
  | poly => 1
  | rbf => 2

theorem get_all (k : Kernel) : all.get k.position = k := by
  cases k <;> rfl

/-- The name by which a kernel is asked for. -/
def name : Kernel → String
  | linear => "linear"
  | poly => "poly"
  | rbf => "RBF"

/-- The kernel of a name. -/
def ofName : String → Except Error Kernel
  | "linear" => .ok linear
  | "poly" => .ok poly
  | "RBF" => .ok rbf
  | "rbf" => .ok rbf
  | other => .error (.unknownKernel other)

/-- The symbols that need a value. -/
def required : Kernel → List String
  | linear => ["a", "b"]
  | poly => ["a", "b", "p", "c"]
  | rbf => ["a", "b", "sigma"]

/-! ## 2. Formulas -/

/-- The text of the formula. -/
def source : Kernel → String
  | linear => "a * b"
  | poly => "((a * b) + c) ^ p"
  | rbf => "exp((-1.0 * (a - b) ^ 2.0) / (2.0 * sigma ^ 2.0))"

/-- The text of the formula in the language of remote executors. -/
def remoteSource : Kernel → String
  | linear => "a * b"
  | poly => "((a * b) + c) ** p"
  | rbf => "exp((-1.0 * (a - b) ** 2.0)/(2.0 * sigma ** 2.0))"

/-- The expression that the text denotes. -/
def expr : Kernel → Expr
  | linear => .binary .multiply (.symbol "a") (.symbol "b")
  | poly =>
    .binary .power
      (.binary .add (.binary .multiply (.symbol "a") (.symbol "b")) (.symbol "c")) (.symbol "p")
  | rbf =>
    .call "exp" (.binary .divide
      (.binary .multiply (.negate (.number 1.0))
        (.binary .power (.binary .subtract (.symbol "a") (.symbol "b")) (.number 2.0)))
      (.binary .multiply (.number 2.0) (.binary .power (.symbol "sigma") (.number 2.0))))

/-- The formula that the text is read as. -/
def formula (k : Kernel) : Formula :=
  ⟨Formula.normalize k.source, k.expr⟩

/-- Both texts denote the expression. -/
theorem ofText_sources (k : Kernel) :
    (Formula.ofText k.source).toOption = some k.formula ∧
      (Expr.ofText k.remoteSource.toList).toOption = some k.expr := by
  cases k <;> decide +kernel

/-- The formulas of all kernels, as they are read from their texts. -/
def readAll : Except Error (Vector Formula 3) :=
  all.mapM fun k => Formula.parse k.source

end Kernel

end BandMath
