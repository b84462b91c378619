/-
# Bindings

The values given to the symbols of a formula.  A symbol has one value or none.  Formulas are
evaluated over any type of operands, so the type of the values is left open here; `Bindings Value`
are the bindings of a batch and `Bindings Float` those of plain arithmetic.

They are kept in the order of the symbols, by code point, so that whatever runs through them does so
in one definite order, such as the conversion of all values to graphs for a remote executor, which
reports the first value that has none (`Value.boundGraphs`).  The map is one that is known by what
it holds (`Std.ExtTreeMap`): two bindings with the same values are equal however they were made,
which is what lets theorems speak of bindings and not of the way they were put together.

* `ofPairs` and `extend` let the last value of a symbol count.
* `Registry.fillDefaults`, which also adds to bindings, never replaces a value.
* `same` compares values as their own type does.  For floats this is not equality of terms, as NaN
  differs from itself and the two zeros do not differ.
-/
import Std.Data.ExtTreeMap

namespace BandMath

/-- Values by symbol. -/
abbrev Bindings (α : Type) := Std.ExtTreeMap String α

namespace Bindings

variable {α : Type}

/-- Later pairs win over earlier ones of the same symbol. -/
def ofPairs (pairs : List (String × α)) : Bindings α :=
  Std.ExtTreeMap.ofList pairs

/-- Binds further symbols; a symbol that is bound gets its new value. -/
def extend (b : Bindings α) (pairs : List (String × α)) : Bindings α :=
  b.insertMany pairs

/-- The bound symbols, in order. -/
def symbols (b : Bindings α) : List String :=
  b.keys

/-- The same symbols with equal values. -/
def same [BEq α] (b c : Bindings α) : Bool :=
  b.toList.map (·.1) == c.toList.map (·.1) && b.toList.map (·.2) == c.toList.map (·.2)

end Bindings

end BandMath
