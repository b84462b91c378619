/-
# Errors

Everything that can go wrong, by cause.  The wording of an error is in one place, `Error.message`,
and what an error says besides its kind are arguments of its constructor: the name, symbol, label or
dimension concerned, and what was expected and what was found, in this order.

The cases of `Error` are those that a caller can tell apart.  Three of them have cases of their own,
which a caller sees only as text:

* `malformedFormula` holds a `Formula.Fault`: a place and the reason for which the text is no
  formula from there on.  Places are counted in characters of the text as it was given, blanks
  included.
* `invalidRegistry` holds a `RegistryFault`: why an index cannot be defined or cannot be taken in.
  A formula that cannot be read is such a reason too, and keeps its place.
* `invalidChunks` holds a `ChunkFault`: why an array cannot be cut, or two arrays that were cut
  cannot be combined.

Three errors pass on what a layer below reports, the file system, the reader of documents and the
joining of arrays.  For these, `Error.inner?` is the text of that layer, which a command line shows
as the cause behind the error.

Equality of errors is decidable, and theorems about failures are stated with it: an operation fails
with exactly this error, whose fields are compared and not only its text.
-/
import BandMath.Formula.Token
import BandMath.Kind
import BandMath.Operator

namespace BandMath

/-! ## 1. Malformed formulas -/

namespace Formula

/-- Why a text is not a formula. -/
inductive Reason where
  /-- A run of digits and points that is not a numeral. -/
  | invalidNumber (source : String)
  /-- A character that starts no token. -/
  | unexpectedCharacter (c : Char)
  | empty
  /-- A token where an operand should start. -/
  | unexpectedToken (token : Token)
  | unexpectedEnd
  | missingParenthesis
  /-- A token after a complete expression. -/
  | trailingToken (token : Token)
  | tooDeep
  deriving DecidableEq

/-- The wording of a reason. -/
def Reason.message : Reason → String
  | invalidNumber source => s!"invalid number '{source}'"
  | unexpectedCharacter c => s!"unexpected character '{c}'"
  | empty => "empty formula"
  | unexpectedToken token => s!"unexpected {token.text}"
  | unexpectedEnd => "unexpected end of formula"
  | missingParenthesis => "expected closing parenthesis"
  | trailingToken token => s!"unexpected {token.text} after expression"
  | tooDeep => "formula nested too deeply"

/-- A reason and the place it applies to, counted in characters from the start of the text. -/
structure Fault where
  position : Nat
  reason : Reason
  deriving DecidableEq

/-- How the fault of a given text is reported. -/
def Fault.message (formula : String) (fault : Fault) : String :=
  s!"invalid formula '{formula}' at position {fault.position}: {fault.reason.message}"

end Formula

/-! ## 2. Inconsistent registries -/

/-- Why an index definition cannot be part of a registry. -/
inductive RegistryFault where
  | malformedFormula (index formula : String) (fault : Formula.Fault)
  /-- The formula mentions a symbol that the definition does not list. -/
  | unlistedSymbol (index symbol : String) (listed : List String)
  /-- A catalogue entry is stored under a key that is not its name. -/
  | misnamedEntry (key name : String)
  /-- The definition lists a symbol that is neither a band nor a constant. -/
  | unknownSymbol (index symbol : String)
  deriving DecidableEq

/-- The wording of a fault in a registry. -/
def RegistryFault.message : RegistryFault → String
  | malformedFormula index formula fault => s!"{index}: {fault.message formula}"
  | unlistedSymbol index symbol listed =>
    s!"{index}: formula uses '{symbol}' which is not among its symbols {Text.quotedList listed}"
  | misnamedEntry key name => s!"entry '{key}' is named '{name}'"
  | unknownSymbol index symbol => s!"{index}: unknown symbol '{symbol}'"

/-! ## 3. Impossible chunk layouts -/

/-- Why an array cannot be cut, or two cut arrays not be combined. -/
inductive ChunkFault where
  | noAxis
  | zeroLength
  | layoutsDiffer (left right : List Nat)
  deriving DecidableEq

/-- The wording of a fault in chunks. -/
def ChunkFault.message : ChunkFault → String
  | noAxis => "a 0-dimensional array has no axis to chunk"
  | zeroLength => "chunk length must be positive"
  | layoutsDiffer left right =>
    s!"chunk layouts differ: {Text.sizeList left} vs {Text.sizeList right}"

/-! ## 4. All errors -/

/-- Why something is refused. -/
inductive Error where
  | unknownIndex (name : String)
  /-- An index or kernel lacks the value of a symbol that it requires. -/
  | missingSymbol (symbol index : String)
  /-- A formula mentions a symbol or calls a function that is not in scope. -/
  | undefinedSymbol (name : String)
  /-- Results of this kind cannot be combined. -/
  | unsupportedKind (kind : Kind)
  /-- The result at `position` is not of the kind of the first one. -/
  | mixedKinds (expected found : Kind) (position : Nat)
  | incompatibleOperands (op : BinaryOp) (left right : Kind)
  | unsupportedOperation (operation : Operation) (kind : Kind)
  | shapeMismatch (expected found : List Nat)
  /-- The row labels of two columns differ. -/
  | indexMismatch
  | dimensionMismatch (expected found : List String)
  | coordinateMismatch (dim : String)
  | unknownDimension (dim : String)
  | unknownLabel (dim label : String)
  | labelCount (expected found : Nat)
  | invalidChunks (fault : ChunkFault)
  | notEnoughResults (required found : Nat)
  | malformedFormula (formula : String) (fault : Formula.Fault)
  | invalidRegistry (fault : RegistryFault)
  | unknownKernel (name : String)
  /-- A file cannot be read. -/
  | unreadable (reason : String)
  /-- A document is not of the form that it should have. -/
  | malformedDocument (reason : String)
  /-- Arrays to be joined differ in length along another axis. -/
  | incompatibleShapes
  deriving DecidableEq

/-- The text of the array layer for arrays that do not fit together. -/
def incompatibleShapesText : String :=
  "ShapeError/IncompatibleShape: incompatible shapes"

/-- The wording of an error. -/
def Error.message : Error → String
  | unknownIndex name => s!"'{name}' is not a valid spectral index"
  | missingSymbol symbol index =>
    s!"'{symbol}' is missing in the parameters for {index} computation"
  | undefinedSymbol name => s!"undefined symbol '{name}' in formula"
  | unsupportedKind kind => s!"cannot combine results of container type {kind.name}"
  | mixedKinds expected found position =>
    s!"mixed container types: result {position} is {found.name}, expected {expected.name}"
  | incompatibleOperands op left right =>
    s!"cannot apply '{op.symbol}' to {left.name} and {right.name}"
  | unsupportedOperation operation kind =>
    s!"operation '{operation.name}' is not supported on {kind.name}"
  | shapeMismatch expected found =>
    s!"shape mismatch: expected {Text.sizeList expected}, got {Text.sizeList found}"
  | indexMismatch => "row labels of tabular operands differ"
  | dimensionMismatch expected found =>
    s!"dimension mismatch: expected {Text.quotedList expected}, got {Text.quotedList found}"
  | coordinateMismatch dim => s!"coordinate '{dim}' differs between operands"
  | unknownDimension dim => s!"unknown dimension '{dim}'"
  | unknownLabel dim label => s!"label '{label}' not found along dimension '{dim}'"
  | labelCount expected found => s!"expected {expected} labels, got {found}"
  | invalidChunks fault => s!"invalid chunking: {fault.message}"
  | notEnoughResults required found =>
    s!"at least {required} results are required, got {found}"
  | malformedFormula formula fault => fault.message formula
  | invalidRegistry fault => s!"invalid registry: {fault.message}"
  | unknownKernel name =>
    s!"'{name}' is not a valid kernel, use one of 'linear', 'poly' or 'RBF'"
  | unreadable reason => s!"I/O error: {reason}"
  | malformedDocument reason => s!"JSON error: {reason}"
  | incompatibleShapes => s!"array shape error: {incompatibleShapesText}"

/-- The text of the layer below, for the errors that only pass one on. -/
def Error.inner? : Error → Option String
  | unreadable reason | malformedDocument reason => some reason
  | incompatibleShapes => some incompatibleShapesText
  | _ => none

end BandMath
