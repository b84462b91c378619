/-
# Definitions of indices

A definition is an index whose formula has been read and mentions only symbols that the definition
lists.  There are two ways to one: `ofFormula` (`new`) takes a text and the symbols, and `ofRecord`
(`from_raw`) takes a record of a catalogue, to which it adds only what is said about the index
besides.

The symbols that are listed must be given a value before the index can be computed, whether the
formula mentions them or not.  The check runs in one direction: a symbol that is mentioned and not
listed is a fault (`unlistedSymbol`, which names the first one in the formula), and a symbol that is
listed and not mentioned is none.  The name of a function is not a symbol, so a formula that calls
one can be defined, listed or not; whether the function is there is found out by evaluation
(`BandMath.Formula.Evaluation`).

Whether the listed symbols are known to anybody is not a question about a definition but about the
registry that it is put into (`Registry.insert`).  The faults of both are described by
`RegistryFault`.
-/
import BandMath.Catalogue.Record
import BandMath.Formula.Basic

namespace BandMath

/-- An index that can be computed. -/
structure IndexDefinition where
  name : String
  formula : Formula
  /-- The symbols that need a value. -/
  required : List String
  metadata : Metadata := {}

namespace IndexDefinition

/-- The definition of an index by the text of its formula and the symbols it requires. -/
def ofFormula (name formula : String) (required : List String) :
    Except RegistryFault IndexDefinition :=
  match Formula.ofText formula with
  | .error fault => .error (.malformedFormula name formula fault)
  | .ok f =>
    match f.symbols.find? fun s => !required.contains s with
    | some s => .error (.unlistedSymbol name s required)
    | none => .ok { name, formula := f, required }

/-- The definition that a record gives. -/
def ofRecord (r : IndexRecord) : Except RegistryFault IndexDefinition := do
  return { ← ofFormula r.name r.formula r.symbols with metadata := r.metadata }

end IndexDefinition

end BandMath
