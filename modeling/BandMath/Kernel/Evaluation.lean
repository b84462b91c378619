/-
# Values of kernels

`Kernel.compute` is the operation `compute_kernel`.  The value of a kernel is computed in one of two
ways, once all symbols that it requires are bound:

* If the operand bound to `a`, or else the one bound to `b`, has a formula language of its own, it
  is given the text of the kernel and everything that is bound, and its answer is the value
  (`Kernel.delegate?`).
* Otherwise the formula that the registry keeps for the kernel is evaluated, with `exp` in scope and
  no other function (`Kernel.compute`).

The operand that is asked need not be the one that decides what comes out.  A remote number is asked
first if it is bound to `a`, and gives an image all the same if an image is bound to another symbol
(`Value.expression?`).  A handle that is bound to neither `a` nor `b` is not asked at all; it is an
operand of the formula then.  That the value is the same by whichever way, as far as one can tell
from what an executor makes of it, is the subject of `BandMath.Proofs.Kernel.Routes`.

The bindings themselves are never extended by `exp`: a function is looked up in the scope and a
symbol among the bindings, so a kernel may be computed over bindings in which `exp` is a symbol.
-/
import BandMath.Registry
import BandMath.Validation

namespace BandMath.Kernel

variable {α : Type}

/-- What the operand bound to `a`, or else the one bound to `b`, makes of the formula in a language
of its own. -/
def delegate? [Operand α] (k : Kernel) (b : Bindings α) : Option (Except Error α) :=
  ["a", "b"].findSome? fun s => b[s]?.bind fun v => Operand.expression? k.remoteSource b v

/-- The value of a kernel. -/
def compute [Operand α] (k : Kernel) (r : Registry) (b : Bindings α) : Except Error α := do
  validate k.name k.required b
  match k.delegate? b with
  | some result => result
  | none => (r.kernel k).evaluateIn { bindings := b, functions := [.exp] }

end BandMath.Kernel
