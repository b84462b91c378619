/-
# Batches

Computing one index or several from the same bindings.  `IndexDefinition.evaluate` is the operation
`evaluate_index`, `Registry.evaluate` is `evaluate_indices`, and `Registry.compute` is
`compute_index`, which takes a request with options and says what becomes of several results.  (Here
and in other modules, a name with underscores is the one by which callers know an operation.)

A batch goes through three phases, and their order decides which of several faults is reported:

1. All names are looked up, in the order in which they are requested.
2. The bindings are checked against every definition.
3. The formulas are evaluated, one after the other or at the same time (`Mode`).

So a batch that fails has no results at all, and nothing is evaluated as long as any index lacks the
value of a symbol.  An index that is requested twice is computed twice; no name is special for
having been requested before.

A batch of one name gives the value of that index, whether the name was given alone or as a list,
and `unify` is not asked.  The values of several names are combined by `unify`, with the names as
labels, or given as a list if the caller wants no combination.  Without any name there is nothing to
combine, which `unify` refuses, and an empty list otherwise.

That a request is answered as these rules say, with the fault that comes first if there is any, is
stated against the rules themselves in `BandMath.Proofs.Batch.Precedence`.
-/
import BandMath.Mode
import BandMath.Registry
import BandMath.Unify
import BandMath.Validation
import BandMath.Value.Arithmetic

namespace BandMath

variable {α : Type}

/-! ## 1. Values of indices -/

/-- The value of one index. -/
def IndexDefinition.evaluate [Operand α] (d : IndexDefinition) (b : Bindings α) :
    Except Error α := do
  d.validate b
  d.formula.evaluate b

/-- The values of several indices, in order. -/
def Registry.evaluate [Operand α] (r : Registry) (mode : Mode) (names : List String)
    (b : Bindings α) : Except Error (List α) := do
  let definitions ← names.mapM r.index
  definitions.forM fun d => d.validate b
  (mode.map (fun d : IndexDefinition => d.formula.evaluate b) definitions).mapM id

/-! ## 2. Requests -/

/-- One index, or a list of them. -/
inductive Request where
  | one (name : String)
  | many (names : List String)
  deriving Repr, DecidableEq

/-- The requested names, in order. -/
def Request.names : Request → List String
  | one name => [name]
  | many names => names

/-- How a batch is computed. -/
structure BatchOptions where
  /-- Whether several results are combined into one. -/
  aggregate : Bool := true
  /-- The dimension along which labeled arrays are combined. -/
  axis : String := "index"
  mode : Mode := .sequential

/-- What a batch gives: one value, or one for each index. -/
inductive Outcome (α : Type) where
  | single (value : α)
  | list (values : List α)

/-- The values of an outcome, in order. -/
def Outcome.toList : Outcome α → List α
  | single v => [v]
  | list vs => vs

/-- Computes what is requested.  A list of one name is treated as that name. -/
def Registry.compute (r : Registry) (request : Request) (b : Bindings Value)
    (options : BatchOptions) : Except Error (Outcome Value) := do
  match request, ← r.evaluate options.mode request.names b with
  | _, [v] => return .single v
  | _, results =>
    if options.aggregate then return .single (← unify results request.names options.axis)
    else return .list results

end BandMath
