/-
# Validation of bindings

Before anything is computed, every symbol that it requires must have a value.  Symbols beyond those
do no harm.  `validate` is the operation of that name, asked of an index or of a kernel, and
`missingSymbols` is `missing_symbols`.

* Only the symbols matter.  A value of any kind will do; whether values go together is found out
  when they are combined.
* The required symbols are gone through in the order in which they are listed, so the symbol that
  is reported does not depend on the bindings beyond what is bound.
* `validate` reports one symbol, under the name of what it was asked for.  A caller who wants all of
  them uses `missingSymbols` (`CommandLine.checkBindings`).

Validation looks at the list of a definition and not at its formula.  A symbol that is listed and
not mentioned has to be bound all the same, and a function that the formula calls is not looked for,
so that evaluation may fail after validation (`BandMath.Proofs.Registry.Sufficiency`).
-/
import BandMath.Bindings
import BandMath.Catalogue.Definition

namespace BandMath

variable {α : Type}

/-- The required symbols without a value, in order. -/
def missingSymbols (required : List String) (b : Bindings α) : List String :=
  required.filter fun s => !b.contains s

/-- Reports the first required symbol that has no value, if there is one. -/
def validate (subject : String) (required : List String) (b : Bindings α) : Except Error Unit :=
  match missingSymbols required b with
  | [] => .ok ()
  | symbol :: _ => .error (.missingSymbol symbol subject)

/-- Validates the bindings for an index. -/
def IndexDefinition.validate (d : IndexDefinition) (b : Bindings α) : Except Error Unit :=
  BandMath.validate d.name d.required b

end BandMath
